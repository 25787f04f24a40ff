import WaltzExample.Machine.Theorems
import WaltzExample.Android.Execution.Theorems.Steps
import WaltzExample.Android.Execution.Theorems.Homed

namespace Android.MainActivity

variable {a : MainActivity}

-- An activity in the foreground that has not made a dialog yet.
structure Fresh (a : MainActivity) : Prop where
  unsaved : a.fm.stateSaved = false
  field   : a.mMyDialog = none
  made    : a.dialogs.next = 0
  held    : a.fm.held = []
  removed : ∀ d, .removeDialog d ∉ a.fm.pending
  homed   : a.Homed

theorem Fresh.sound (h : a.Fresh) : a.Sound := by
  have hn (d : Ref) : d ∉ a.fm.held := by simp [h.held]
  constructor
  case unsaved  => exact h.unsaved
  case nodup    => simp [h.held]
  case held     => exact fun d hd => absurd hd (hn d)
  case assigned => simp [h.field]
  case made     => exact fun d hd => absurd (h.made ▸ hd) (Nat.not_lt_zero d)
  case viewed   => exact fun d hd => absurd (FragmentManager.dialogs_subset_held hd) (hn d)
  case unviewed => exact fun d hd => absurd (FragmentManager.mem_held_iff.mpr <| .inr hd) (hn d)
  case removed  => exact fun d hd => absurd hd (h.removed d)
  case leaving  => exact fun d hd => absurd hd (h.removed d)

theorem fresh_launched : launched.Fresh where
  unsaved   := rfl
  field     := rfl
  made      := rfl
  held      := rfl
  removed _ := List.not_mem_nil
  homed     := ⟨fun _ => nofun, fun _ => nofun⟩

theorem Fresh.invariant {ι : Type} [Gson ι] {a' : MainActivity} (h : a.Fresh)
    (r : (machine ι).Run a a') : a'.Sound ∧ a'.Homed :=
  r.invariant (I := fun a => a.Sound ∧ a.Homed)
    (fun _ _ ⟨hs, hh⟩ he => ⟨hs.next he, hh.next he⟩) ⟨h.sound, h.homed⟩

end Android.MainActivity
