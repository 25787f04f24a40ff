import WaltzExample.Machine.Theorems
import WaltzExample.Method.Theorems
import WaltzExample.IOS.Response.Basic

namespace IOS.ViewController

variable {ι : Type} [JSON ι] {v : ViewController} {g : Option (Last ι)} {x : Answer ι}

section Handlers

-- Of the fields a callback assigns only these two.
def wrote (v : ViewController) (line : String) (text : Option String) : ViewController :=
  { v with console := line :: v.console, responseTV := text.getD v.responseTV }

-- The loop of the callbacks collects the invitations in the order in which they were delivered.
theorem after_didGetInvitations (name : String) (errorCode : SDKResponseCodes)
    (list : Option (List (ι × UUID))) :
    (didGetInvitations name errorCode list).after v =
      v.wrote ("The Get my " ++ name ++ " quit with error code " ++ errorCode.description)
        (if errorCode = .success then renderList list else none) := by
  by_cases hs : errorCode = .success
  case neg => simp [didGetInvitations, Method.after, hs, print, wrote]
  case pos =>
    cases list
    case none => simp [didGetInvitations, Method.after, hs, print, setResponse, renderList, wrote]
    case some list =>
      have hl : (list.map fun i => [i.1]).flatten = list.map Prod.fst := by
        rw [← List.flatMap_def, ← List.map_eq_flatMap]
      simp [didGetInvitations, Method.after, hs, print, setResponse, renderList, hl, wrote]

theorem after_didSendWaltzInvitation (errorCode : SDKResponseCodes) :
    (didSendWaltzInvitationWithErrorCode errorCode).after v =
      v.wrote ("The Send Invitation quit with error code " ++ errorCode.description)
        (if errorCode = .success then "Success" else none) := by
  by_cases hs : errorCode = .success <;>
    simp [didSendWaltzInvitationWithErrorCode, Method.after, hs, print, setResponse, wrote]

-- When one of the user infos is missing the process stops before the view is written.
theorem after_didGetWaltzJWT (errorCode : SDKResponseCodes) (jwt : Option JWT) :
    (didGetWaltzJWTWithErrorCode errorCode jwt).after v =
      v.wrote ("The Get JWT quit with error code " ++ errorCode.description)
        (if errorCode = .success then jwt.bind JWT.text else none) := by
  by_cases hs : errorCode = .success
  case neg => simp [didGetWaltzJWTWithErrorCode, Method.after, hs, print, wrote]
  case pos =>
    cases jwt
    case none => simp [didGetWaltzJWTWithErrorCode, Method.after, hs, print, wrote]
    case some j =>
      cases h₁ : j.body "firstName" <;> cases h₂ : j.body "lastName" <;>
      cases h₃ : j.body "userEmail" <;> cases h₄ : j.body "uid" <;>
        simp [didGetWaltzJWTWithErrorCode, Method.after, hs, print, setResponse, unwrap, JWT.text,
          h₁, h₂, h₃, h₄, wrote]

-- A success replaces what the view shows, whichever request it is the answer to.
theorem after_onAnswer (v : ViewController) (x : Answer ι) :
    ∃ line, (onAnswer x).after v = v.wrote line x.rendering := by
  cases x
  case guests      => exact ⟨_, after_didGetInvitations ..⟩
  case invitations => exact ⟨_, after_didGetInvitations ..⟩
  case invitation  => exact ⟨_, after_didSendWaltzInvitation _⟩
  case jwt         => exact ⟨_, after_didGetWaltzJWT ..⟩

theorem after_answer (v : ViewController) (x : Answer ι) :
    ∃ line, (handle (.answer x)).after v =
      { v with sharedManager := v.sharedManager.answer x.answers }.wrote line x.rendering := by
  have ⟨line, h⟩ := after_onAnswer { v with sharedManager := v.sharedManager.answer x.answers } x
  exact ⟨line, (Method.after_bind_of_ok rfl).trans h⟩

end Handlers

section Taps

def Tap.request : Tap → Request
  | getMyGuestsList      => .getMyGuestsWithUUID
  | getMyInvitationsList => .getMyInvitationsWithUUID
  | sendInvitation now   => .sendInvitation "iOS SDK first name" "iOS SDK last name"
    "iossdk@example.com" "5145457878" now (now + 30 * 60)
  | getUserInfo          => .getJWT

theorem after_tap (b : Tap) :
    (handle (.tap b : Event ι)).after v =
      { v with
        responseTV    := if b.Clears then "" else v.responseTV
        sharedManager := v.sharedManager.issue b.request } := by
  cases b <;> rfl

end Taps

-- The requests that are still unanswered, and what is remembered of the last tap.
structure Faithful (v : ViewController) (g : Option (Last ι)) : Prop where
  shows    : v.Shows g
  request  : ∀ t q, g = some t → (t.number, q) ∈ v.sharedManager.unanswered → q = t.tap.request
  answered : ∀ t q, g = some t → t.answer ≠ none → (t.number, q) ∉ v.sharedManager.unanswered
  own      : ∀ t x, g = some t → t.answer = some x → x.answers t.tap.request

namespace Faithful

theorem of_none : v.Faithful (none : Option (Last ι)) where
  shows _ hg      := nomatch hg
  request _ _ hg  := nomatch hg
  answered _ _ hg := nomatch hg
  own _ _ hg      := nomatch hg

theorem tap (b : Tap) : Faithful ((handle (.tap b : Event ι)).after v) (observe v (.tap b) g) := by
  rw [after_tap]
  constructor
  case shows =>
    intro t ht hc
    cases ht
    exact if_pos hc
  case request =>
    intro t q ht hq
    cases ht
    cases Requests.mem_unanswered_issue.mp hq
    case inl hq => exact absurd hq Requests.issued_not_mem
    case inr hq => exact congrArg Prod.snd hq
  case answered =>
    intro t q ht ha
    cases ht
    exact absurd rfl ha
  case own =>
    intro t x ht ha
    cases ht
    cases ha

-- The answer to the request of the last tap comes once.
theorem answer_eq_none {t : Last ι} (h : v.Faithful (some t))
    (hn : v.sharedManager.oldest? x.answers = some t.number) : t.answer = none := by
  have ⟨q, _, hq⟩ := Requests.mem_of_oldest? hn
  by_contra ha
  exact h.answered t q rfl ha hq

theorem answer (h : v.Faithful g) (ht : InTurn (v, g) (.answer x)) :
    Faithful ((handle (.answer x)).after v) (observe v (.answer x) g) := by
  have ⟨line, ha⟩ := after_answer v x
  rw [ha]
  cases g
  case none => exact .of_none
  case some t =>
    by_cases hn : v.sharedManager.oldest? x.answers = some t.number
    case pos =>
      have ⟨q, hp, hq⟩ := Requests.mem_of_oldest? hn
      have hna : t.answer = none := h.answer_eq_none hn
      rw [observe, Option.map_some, if_pos hn]
      have hna' (q : Request) : (t.number, q) ∉ (v.sharedManager.answer x.answers).unanswered :=
        Requests.not_mem_answer hn
      constructor
      case request =>
        intro _ q' ht hq'
        cases ht
        exact absurd hq' <| hna' q'
      case answered =>
        intro _ q' ht _
        cases ht
        exact hna' q'
      case own =>
        intro _ _ ht hx
        cases ht
        cases hx
        exact h.request t q rfl hq ▸ hp
      case shows =>
        intro _ ht hc
        cases ht
        have hs := h.shows t rfl hc
        simp only [Last.expected, hna] at hs
        simp [wrote, Last.expected, hs]
    case neg =>
      rw [observe, Option.map_some, if_neg hn]
      constructor
      case request  => exact fun t q hg hq => h.request t q hg <| Requests.answer_subset hq
      case answered => exact fun t q hg ha hq => h.answered t q hg ha <| Requests.answer_subset hq
      case own      => exact h.own
      case shows =>
        intro _ hg hc
        cases hg
        have hr : x.rendering = none := by
          by_contra hr
          exact hn <| ht t rfl hc hr
        simpa [wrote, hr] using h.shows t rfl hc

end Faithful

section Runs

variable {s : ViewController × Option (Last ι)}

theorem faithful_of_inTurn (r : (recorded ι).Run (v, none) s) (ht : r.Steps InTurn) :
    s.1.Faithful s.2 := by
  refine r.invariant_of_steps (I := fun s => s.1.Faithful s.2) ?_ .of_none ht
  intro s e h he ht
  cases e
  case tap b    => exact .tap (g := s.2) b
  case answer x => exact h.answer ht

-- As long as answers come in turn, the response view shows what the last tap calls for.
theorem shows_of_inTurn (r : (recorded ι).Run (v, none) s) (ht : r.Steps InTurn) :
    s.1.Shows s.2 :=
  (faithful_of_inTurn r ht).shows

-- An answer that comes out of turn is shown in the place of what the last tap calls for.
theorem responseTV_of_not_inTurn {x : Answer ι} (h : ¬InTurn s (.answer x)) :
    some ((handle (.answer x)).after s.1).responseTV = x.rendering := by
  have ⟨_, _, _, hr, _⟩ : ∃ t, s.2 = some t ∧ t.tap.Clears ∧ x.rendering ≠ none ∧
      s.1.sharedManager.oldest? x.answers ≠ some t.number := by
    simpa [InTurn] using h
  have ⟨_, hr⟩ := Option.ne_none_iff_exists'.mp hr
  have ⟨_, ha⟩ := after_answer s.1 x
  simp [ha, wrote, hr]

section Events

-- The answer to the invitation comes late, but it is no success.
private abbrev guests : List (Event Empty) := [
  .tap <| .sendInvitation 0,
  .tap .getMyGuestsList,
  .answer <| .invitation .failure,
  .answer <| .guests .success none
]

theorem shows_guests :
    let s := guests.foldl (recorded Empty).next ({ }, none)
    s.1.Shows s.2 := by
  refine shows_of_inTurn (.ofEvents _ guests <| by decide) ?_
  simp only [Machine.Run.steps_ofEvents_cons, Machine.Run.steps_ofEvents_nil, and_true]
  refine ⟨trivial, trivial, fun _ _ _ hx => absurd rfl hx, fun _ ht _ _ => ?_⟩
  cases ht
  rfl

-- The invitation's answer is shown while the guests are still being waited for.
theorem not_shows_late_answer :
    ¬∀ (v : ViewController) (s : ViewController × Option (Last Empty))
      (_ : (recorded Empty).Run (v, none) s), s.1.Shows s.2 := by
  intro h
  have hs := h { } _ (.ofEvents _ [
    .tap <| .sendInvitation 0,
    .tap .getMyGuestsList,
    .answer <| .invitation .success
  ] <| by decide) _ rfl (by decide)
  exact absurd hs <| by decide

end Events
end Runs
end IOS.ViewController
