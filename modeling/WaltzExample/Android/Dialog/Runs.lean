import WaltzExample.Android.Dialog.Theorems

namespace Android

open Relation (ReflTransGen)

theorem MyDialog.StandsFor.dismissed {o : MyDialog} {r : Result} (h : o.StandsFor r) :
    o.dismissed.StandsFor r :=
  ⟨h.code, h.infos, h.shows⟩

namespace MainActivity

variable {ι : Type} [Gson ι] {a a' : MainActivity} {d : Ref} {g : Ref → Result}

-- An observer keeps record of what each dialog has been given: the result that it was opened with,
-- and the infos of the callbacks that have returned. A callback that throws brings nothing.
def given (a : MainActivity) : Event ι → (Ref → Result) → Ref → Result
  | .callback f c, g =>
    match a.mMyDialog with
    | none   => Function.update g a.dialogs.next ⟨c.code, c.infos⟩
    | some d =>
      if a.Completes (.callback f c : Event ι) then
        Function.update g d <| Result.deliver c.code c.infos <| g d
      else
        g
  | _, g => g

def delivered (ι : Type) [Gson ι] : Machine (MainActivity × (Ref → Result)) (Event ι) :=
  (machine ι).record given

instance (s : MainActivity × (Ref → Result)) (e : Event ι) :
    Decidable ((delivered ι).Enabled s e) :=
  inferInstanceAs <| Decidable (s.1.Enabled e)

-- All dialogs that have been made stand for what they were given, also those that are gone.
def Given (a : MainActivity) (g : Ref → Result) : Prop :=
  ∀ d < a.dialogs.next, (a.dialog d).StandsFor (g d)

namespace Given

theorem silents (h : a.Given g) (hs : a.Sound) (hsi : ReflTransGen Silent a a') : a'.Given g := by
  induction hsi
  case refl              => exact h
  case tail hsi' hsi hi  =>
    have hn := hsi.next_eq
    exact fun d hd => hsi.standsFor (hs.silents hsi') <| hi d <| hn ▸ hd

theorem opened (h : a.Given g) (code : WaltzCode) (infos : Option DDInfos) : Given (
      a.alloc (opened code infos) |>.assign a.dialogs.next |>.enqueue (.addDialog a.dialogs.next)
    ) (Function.update g a.dialogs.next ⟨code, infos⟩) := by
  intro d hd
  cases Nat.lt_succ_iff_lt_or_eq.mp hd
  case inl hd =>
    simpa [Function.update_of_ne <| Nat.ne_of_lt hd, dialog_alloc_of_lt _ hd] using h d hd
  case inr hd => subst hd; simpa using .opened

-- A dialog is given something.
theorem setDialog {o : MyDialog} {r : Result} (h : a.Given g)
    (ho : (a.dialog d).StandsFor (g d) → o.StandsFor r) :
    (a.setDialog d o).Given (Function.update g d r) := by
  intro d' hd
  by_cases he : d' = d
  case pos => subst he; simpa using ho <| h d' hd
  case neg => simpa [he] using h d' hd

theorem shown {code : WaltzCode} {infos : Option DDInfos} {t : Option Throwable} (h : a.Given g)
    (hs : a.Sound) (hsh : Shown a code infos t a') : a'.Given (
      match a.mMyDialog with
      | none   => Function.update g a.dialogs.next ⟨code, infos⟩
      | some d =>
        if t = none then Function.update g d <| Result.deliver code infos <| g d else g
    ) := by
  cases hsh
  case opened hm _      => simpa [hm] using h.opened code infos
  case refused hst      => exact absurd hs.unsaved <| by simp [hst]
  case failed hm _ _ _  => simpa [hm] using h
  case same d hm hi     =>
    have hg := h.setDialog (d := d) (o := a.dialog d) (r := .deliver code infos <| g d) fun hd =>
      hd.deliver <| hi.imp_right fun hc hg => hc <| hg ▸ hd.code
    simpa [hm] using hg
  case written d data hm hi hc hv =>
    have hg := h.setDialog (d := d) (o := (a.dialog d).written data)
      (r := Result.deliver code infos (g d)) fun hd => by
        have hgr : (g d).code = .accessGranted := Option.some.inj <| hd.code.symm.trans hc
        simpa [hi, Result.deliver] using hd.written hgr hv
    simpa [hm] using hg

theorem clicked (h : a.Given g) (hc : Clicked a d a') : a'.Given g := by
  cases hc
  case again     => exact h
  case dismissed =>
    have hg := h.setDialog (d := d) (r := g d) (·.dismissed)
    rw [Function.update_eq_self] at hg
    exact hg

-- Nothing but a callback gives a dialog anything.
theorem stepped {e : Event ι} {t : Option Throwable} (h : a.Given g) (hs : a.Sound)
    (hst : Stepped a e t a') (he : ∀ f c, e ≠ .callback f c) : a'.Given g := by
  cases hst
  case silent hsi => exact h.silents hs hsi
  case answered   => exact h
  case shown      => exact absurd rfl <| he _ _
  case clicked hc => exact h.clicked hc

theorem next {e : Event ι} (h : a.Given g) (hs : a.Sound) (he : a.Enabled e) :
    ((handle e).after a).Given (given a e g) := by
  have hn := h.stepped hs <| hs.stepped he
  cases e
  case callback f c =>
    have hg := h.shown hs <| MainActivity.shown a c.code c.infos
    simpa only [given, Completes, Method.Completes, handle, c.onCallback_eq] using hg
  all_goals exact hn <| by simp

end Given

-- A dialog on the screen shows what it has been given, at whatever time the callbacks come, and
-- the Back key cannot get rid of it.
theorem shows_given {s : MainActivity × (Ref → Result)} (h : a.Fresh)
    (r : (delivered ι).Run (a, g) s) (hd : s.1.Displayed d) :
    (s.1.dialog d).Shows (s.2 d) ∧ (s.1.dialog d).mCancelable = false := by
  have hf : a.Given g := fun d hd => absurd (h.made ▸ hd) (Nat.not_lt_zero d)
  have ⟨hs, hg⟩ := r.invariant (I := fun s => s.1.Sound ∧ s.1.Given s.2)
    (fun _ _ ⟨hs, hg⟩ he => ⟨hs.next he, hg.next hs he⟩) ⟨h.sound, hf⟩
  have hh := hs.held d <| FragmentManager.dialogs_subset_held hd.left
  have hv := hs.viewed d hd.left
  exact ⟨(hg d hh).shows hv.ddInfos, hv.locked⟩

section Infos

private abbrev lostInfos : List (Event Empty) := [
  .clickStartTransaction,
  .callback 0 <| .onTransactionDone .accessGranted,
  .callback 0 <| .onTransactionDoneWith .accessGranted <| some ⟨"B", "12"⟩,
  .execNext,
  .execNext
]

-- Infos that come before the dialog's view are not shown later either.
theorem shows_given_lostInfos :
    let s := lostInfos.foldl (delivered Empty).next (launched, fun _ => ⟨.success, none⟩)
    (s.1.dialog 0).Shows (s.2 0) ∧ (s.1.dialog 0).mCancelable = false :=
  shows_given fresh_launched (.ofEvents _ lostInfos <| by decide) (by decide)

end Infos
end MainActivity
end Android
