import WaltzExample.Android.Objects.Basic

namespace Android

-- What a result dialog is for, without fragments and views: from the callback that opens it until
-- it is dismissed it stands for one code and for the latest infos that the callbacks have brought.
structure Result where
  code  : WaltzCode
  infos : Option DDInfos
  deriving DecidableEq

namespace Result

-- A callback opens the dialog, or it brings infos to the one that is open.
def deliver (code : WaltzCode) (infos : Option DDInfos) : Option Result → Result
  | none   => { code, infos }
  | some r => { r with infos := infos <|> r.infos }

def title (r : Result) : TextView where
  text := r.code.toString

-- Infos are shown with an `ACCESS_GRANTED` only.
def ddInfos (r : Result) : TextView :=
  match r.code, r.infos with
  | .accessGranted, some data => { text := data.text }
  | _,              _         => { visibility := .gone }

theorem ddInfos_of_granted {data : DDInfos} :
    ddInfos { code := .accessGranted, infos := some data } = { text := data.text } :=
  rfl

theorem ddInfos_of_not_granted {r : Result} (h : r.code ≠ .accessGranted) :
    r.ddInfos = { visibility := .gone } := by
  obtain ⟨code, infos⟩ := r
  cases code <;> first | rfl | exact absurd rfl h

theorem ddInfos_deliver_of_not_granted {r : Result} (code : WaltzCode) (infos : Option DDInfos)
    (h : r.code ≠ .accessGranted) : (deliver code infos r).ddInfos = r.ddInfos := by
  have h' : (deliver code infos r).code ≠ .accessGranted := h
  rw [ddInfos_of_not_granted h, ddInfos_of_not_granted h']

theorem ddInfos_of_none {code : WaltzCode} :
    ddInfos { code, infos := none } = { visibility := .gone } := by
  cases code <;> rfl

end Result
end Android
