import WaltzExample.IOS.Response.Theorems

namespace IOS.ViewController

variable {ι : Type} [JSON ι] {v : ViewController} {g : Option (Last ι)} {e : Event ι}

-- What an observer remembers of the response view: how it read before the last tap, and that tap.
structure Seen (ι : Type) where
  before : String
  last   : Option (Last ι) := none

-- Until its answer is a success, a tap leaves the view as it was or clears it.
def Seen.text (g : Seen ι) : String :=
  match g.last with
  | none   => g.before
  | some t => (t.answer.bind Answer.rendering).getD <| if t.tap.Clears then "" else g.before

def see (v : ViewController) : Event ι → Seen ι → Seen ι
  | .tap b,    g => { before := g.text, last := observe v (.tap b) g.last }
  | .answer x, g => { g with last := observe v (.answer x) g.last }

def watched (ι : Type) [JSON ι] : Machine (ViewController × Seen ι) (Event ι) :=
  (machine ι).record see

instance (s : ViewController × Seen ι) (e : Event ι) : Decidable ((watched ι).Enabled s e) :=
  inferInstanceAs <| Decidable (s.1.Enabled e)

-- There is no tap before all requests have been answered.
def Sequential (s : ViewController × Seen ι) : Event ι → Prop
  | .tap _    => s.1.sharedManager.unanswered = []
  | .answer _ => True

-- All requests that are still unanswered are that of the last tap.
def Current (v : ViewController) (g : Option (Last ι)) : Prop :=
  ∀ r ∈ v.sharedManager.unanswered, ∃ t, g = some t ∧ r.1 = t.number

omit [JSON ι] in
theorem Current.oldest {x : Answer ι} (h : v.Current g) (he : v.Enabled (.answer x)) :
    ∃ t, g = some t ∧ v.sharedManager.oldest? x.answers = some t.number := by
  have ⟨n, hn⟩ := Option.ne_none_iff_exists'.mp he
  have ⟨q, _, hq⟩ := Requests.mem_of_oldest? hn
  have ⟨t, ht, he⟩ := h _ hq
  exact ⟨t, ht, hn.trans <| congrArg some he⟩

theorem Current.inTurn {x : Answer ι} (h : v.Current g) (he : v.Enabled (.answer x)) :
    InTurn (v, g) (.answer x) := by
  intro t ht _ _
  have ⟨t', ht', ho⟩ := h.oldest he
  cases ht.symm.trans ht'
  exact ho

theorem Current.next (h : v.Current g)
    (hs : ∀ b, e = .tap b → v.sharedManager.unanswered = []) :
    ((handle e).after v).Current (observe v e g) := by
  cases e
  case tap b =>
    rw [after_tap]
    intro r hr
    have hr : r = (v.sharedManager.issued, b.request) := by
      simpa [hs b rfl] using Requests.mem_unanswered_issue.mp hr
    exact ⟨_, rfl, hr ▸ rfl⟩
  case answer x =>
    have ⟨_, ha⟩ := after_answer v x
    rw [ha]
    intro r hr
    have ⟨t, ht, hn⟩ := h r <| Requests.answer_subset hr
    subst ht
    refine ⟨_, rfl, ?_⟩
    dsimp only
    split <;> exact hn

-- The view reads as the observer says, and one request at most is unanswered.
structure Settled (v : ViewController) (g : Seen ι) : Prop where
  current  : v.Current g.last
  faithful : v.Faithful g.last
  text     : v.responseTV = g.text

namespace Settled

variable {g : Seen ι}

theorem tap (h : v.Settled g) (b : Tap) (hu : v.sharedManager.unanswered = []) :
    ((handle (.tap b : Event ι)).after v).Settled (see v (.tap b) g) where
  current  := h.current.next fun _ _ => hu
  faithful := .tap (g := g.last) b
  text     := by simp [after_tap, see, observe, Seen.text, h.text]

-- What is answered is the last tap, for the first time.
theorem answer {x : Answer ι} (h : v.Settled g) (he : v.Enabled (.answer x)) :
    ((handle (.answer x)).after v).Settled (see v (.answer x) g) where
  current  := h.current.next nofun
  faithful := h.faithful.answer <| h.current.inTurn he
  text     := by
    have ⟨t, ht, ho⟩ := h.current.oldest he
    have hn : t.answer = none := Faithful.answer_eq_none (ht ▸ h.faithful) ho
    have ⟨_, ha⟩ := after_answer v x
    have hr : v.responseTV = if t.tap.Clears then "" else g.before := by
      simpa [Seen.text, ht, hn] using h.text
    simp [ha, wrote, see, observe, Seen.text, ht, ho, hr]

end Settled

-- As long as there is one request at a time the view shows the answer to the last tap. Before that
-- answer is a success the view is empty, or, if the tap does not clear it, as it was.
theorem responseTV_of_sequential {s : ViewController × Seen ι}
    (hv : v.sharedManager.unanswered = []) (r : (watched ι).Run (v, ⟨v.responseTV, none⟩) s)
    (hs : r.Steps Sequential) : s.1.responseTV = s.2.text := by
  have hc : v.Current (none : Option (Last ι)) := by simp [Current, hv]
  have h : s.1.Settled s.2 := by
    refine r.invariant_of_steps (I := fun s => s.1.Settled s.2) ?_ ⟨hc, .of_none, rfl⟩ hs
    intro s e h he hs
    cases e
    case tap b    => exact h.tap b hs
    case answer x => exact h.answer he
  exact h.text

section Events

private abbrev sequence : List (Event Empty) := [
  .tap <| .sendInvitation 0,
  .answer <| .invitation .success,
  .tap .getUserInfo,
  .answer <| .jwt .success <| some ⟨some⟩
]

theorem responseTV_sequence :
    let s := sequence.foldl (watched Empty).next ({ }, ⟨"", none⟩)
    s.1.responseTV = s.2.text := by
  refine responseTV_of_sequential (v := { }) rfl (.ofEvents _ sequence <| by decide) ?_
  simp only [Machine.Run.steps_ofEvents_cons, Machine.Run.steps_ofEvents_nil, and_true]
  exact ⟨rfl, trivial, rfl, trivial⟩

end Events

section Traps

-- The process stops when one of the user infos is missing.
theorem completes_jwt_iff {j : JWT} :
    (handle (.answer <| .jwt .success j : Event ι)).Completes v ↔ j.text ≠ none := by
  cases h₁ : j.body "firstName" <;> cases h₂ : j.body "lastName" <;>
  cases h₃ : j.body "userEmail" <;> cases h₄ : j.body "uid" <;>
    simp [handle, onAnswer, didGetWaltzJWTWithErrorCode, Method.Completes, Method.thrown, print,
      setResponse, unwrap, JWT.text, h₁, h₂, h₃, h₄]

theorem completes_didGetInvitations (name : String) (errorCode : SDKResponseCodes)
    (list : Option (List (ι × UUID))) : (didGetInvitations name errorCode list).Completes v := by
  by_cases hs : errorCode = .success
  case neg => simp [didGetInvitations, Method.Completes, Method.thrown, hs, print]
  case pos =>
    cases list <;>
      simp [didGetInvitations, Method.Completes, Method.thrown, hs, print, setResponse]

theorem completes_onAnswer_iff {x : Answer ι} : (handle (.answer x)).Completes v ↔
    (onAnswer x).Completes { v with sharedManager := v.sharedManager.answer x.answers } :=
  .rfl

-- Nothing else stops it.
theorem completes_iff : (handle e).Completes v ↔
    ∀ j, e = .answer (.jwt .success (some j)) → j.text ≠ none := by
  cases e
  case tap b => cases b <;> simp [handle, onTap, Method.Completes, Method.thrown] <;> rfl
  case answer x =>
    cases x
    case guests =>
      exact iff_of_true (completes_onAnswer_iff.mpr <| completes_didGetInvitations ..) <| by simp
    case invitations =>
      exact iff_of_true (completes_onAnswer_iff.mpr <| completes_didGetInvitations ..) <| by simp
    case invitation errorCode =>
      refine iff_of_true (completes_onAnswer_iff.mpr ?_) <| by simp
      by_cases hs : errorCode = .success <;>
        simp [onAnswer, didSendWaltzInvitationWithErrorCode, Method.Completes, Method.thrown, hs,
          print, setResponse]
    case jwt errorCode jwt =>
      by_cases hs : errorCode = .success
      case neg =>
        refine iff_of_true (completes_onAnswer_iff.mpr ?_) fun j he => absurd ?_ hs
        case refine_1 =>
          simp [onAnswer, didGetWaltzJWTWithErrorCode, Method.Completes, Method.thrown, hs, print]
        case refine_2 => cases he; rfl
      case pos =>
        subst hs
        cases jwt
        case none   => exact iff_of_true rfl <| by simp
        case some j => simpa using completes_jwt_iff (ι := ι) (v := v) (j := j)

end Traps
end IOS.ViewController
