import WaltzExample.Nanopb.Transport.Theorems
import WaltzExample.Nanopb.Uploader.Basic

namespace Nanopb

open Varint (Byte)

variable {rs : List Record} {data : List Byte} {e : Error}

theorem decodeLogResponse_of_carries {m : LogResponse.Message}
    (hl : ∀ r ∈ rs, r.tag ∈ LogResponse.tags → r.payload.length < 2 ^ 32)
    (hc : LogResponse.Carries rs m) : decodeLogResponse (serialize rs) = (m, none) := by
  have h : LogResponse.WellFormed := by decide
  have hr := (Fields.takes h (Fields.merges_default m) hl hc).run_eq LogResponse.forward_find
  rw [decodeLogResponse, decode, decodeNoinit, hr]

namespace GDTCCTUploader

variable (uploader : GDTCCTUploader) (target : GDTCORTarget) (snapshot : GDTCORClock)
variable (statusCode : ℤ)

-- A time that is stored holds nothing back.
theorem ready_iff {highPriority : Bool} {events : ℕ} :
    (uploader.readyToUploadTarget target snapshot highPriority events).fst ↔
      (target = .csh ∧ 0 < events) ∨
        (uploader.currentUploadPackage = false ∧ uploader.currentTask = false) := by
  unfold readyToUploadTarget
  split_ifs <;> simp_all

-- What is stored after a response that asks to wait for `wait`.
structure Waits (uploader' : GDTCCTUploader) (wait : BitVec 64) : Prop where
  cct : uploader'.CCTNextUploadTime =
    if target = .cct then some <| snapshot.clockSnapshotInTheFuture wait
    else uploader.CCTNextUploadTime
  fll : uploader'.FLLNextUploadTime =
    if target = .fll ∨ target = .csh then some <| snapshot.clockSnapshotInTheFuture wait
    else uploader.FLLNextUploadTime

theorem waits_setNextUploadTime (wait : BitVec 64) : uploader.Waits target snapshot
    (uploader.setNextUploadTime target <| snapshot.clockSnapshotInTheFuture wait) wait := by
  cases target <;> exact ⟨rfl, rfl⟩

-- A response that cannot be decoded counts as one that asks for a quarter of an hour.
theorem waits_of_error (h : (decode LogResponse).run data = .error e) :
    decodeLogResponse data = (LogResponse.setToDefaults, some e.errmsg) ∧
      uploader.Waits target snapshot
        (uploader.completionHandler target snapshot (some data) statusCode).fst
        (15 * 60 * 1000) := by
  have hd : decodeLogResponse data = (LogResponse.setToDefaults, some e.errmsg) := by
    rw [decodeLogResponse, h]
  have hw := waits_setNextUploadTime uploader target snapshot (15 * 60 * 1000)
  refine ⟨hd, ?_⟩
  simp only [completionHandler, Option.map_some, hd]
  exact ⟨hw.cct, hw.fll⟩

theorem waits_of_response {m : LogResponse.Message} (h : decodeLogResponse data = (m, none)) :
    uploader.Waits target snapshot
      (uploader.completionHandler target snapshot (some data) statusCode).fst
      (m.fst.getD <| 15 * 60 * 1000) := by
  obtain ⟨wait, _⟩ := m
  have hw := waits_setNextUploadTime uploader target snapshot (wait.getD <| 15 * 60 * 1000)
  cases wait
  all_goals
    simp only [completionHandler, Option.map_some, h]
    exact ⟨hw.cct, hw.fll⟩

-- The time that a response asks to wait for is stored for its target, whatever else the response
-- says. Yet the next upload can begin at once.
theorem waits_of_carries {m : LogResponse.Message}
    (hl : ∀ r ∈ rs, r.tag ∈ LogResponse.tags → r.payload.length < 2 ^ 32)
    (hc : LogResponse.Carries rs m) :
    let uploader' := (uploader.completionHandler target snapshot (serialize rs) statusCode).fst
    decodeLogResponse (serialize rs) = (m, none) ∧
      uploader.Waits target snapshot uploader' (m.fst.getD <| 15 * 60 * 1000) ∧
      ∀ target snapshot highPriority events,
        (uploader'.readyToUploadTarget target snapshot highPriority events).fst := by
  have hd := decodeLogResponse_of_carries hl hc
  exact ⟨hd, waits_of_response uploader target snapshot statusCode hd,
    fun _ _ _ _ => (ready_iff ..).mpr <| .inr ⟨rfl, rfl⟩⟩

section Response

private abbrev response : LogResponse.Message :=
  (some 1000, none, ())

private abbrev unasked : Record :=
  ⟨9, .varint, Varint.encode 300⟩

private abbrev asking : List Record :=
  unasked :: LogResponse.records response

private theorem carries_asking : LogResponse.Carries asking response :=
  (LogResponse.carries_records (by decide) response).cons (skippable_encode (by decide) 300)
    (by decide)

private abbrev now : GDTCORClock :=
  ⟨5000, 0, 0, 0⟩

theorem waits_asking :
    let uploader' := (completionHandler { currentTask := true } .csh now (serialize asking) 200).fst
    decodeLogResponse (serialize asking) = (response, none) ∧
      Waits { currentTask := true } .csh now uploader' 1000 ∧
      ∀ target snapshot highPriority events,
        (uploader'.readyToUploadTarget target snapshot highPriority events).fst := by
  refine waits_of_carries _ _ _ _ (fun r hr _ => ?_) carries_asking
  revert r
  decide +kernel

end Response
end GDTCCTUploader
end Nanopb
