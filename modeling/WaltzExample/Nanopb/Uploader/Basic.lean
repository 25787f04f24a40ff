import WaltzExample.Nanopb.Transport.Basic

namespace Nanopb

open Varint (Byte)

-- What the clocks of the device say at one time.
structure GDTCORClock where
  timeMillis            : BitVec 64
  timezoneOffsetSeconds : BitVec 64
  kernelBootTime        : BitVec 64
  uptime                : BitVec 64
  deriving DecidableEq

namespace GDTCORClock

def clockSnapshotInTheFuture (snapshot : GDTCORClock) (millisInTheFuture : BitVec 64) :
    GDTCORClock :=
  { snapshot with timeMillis := snapshot.timeMillis + millisInTheFuture }

-- The numbers are signed.
def isAfter (clock otherClock : GDTCORClock) : Bool :=
  if clock.kernelBootTime = otherClock.kernelBootTime then
    let timeDiff := (clock.timeMillis + clock.timezoneOffsetSeconds) -
      (otherClock.timeMillis + otherClock.timezoneOffsetSeconds)
    BitVec.slt 0 timeDiff
  else
    let kernelBootTimeDiff := otherClock.kernelBootTime - clock.kernelBootTime
    kernelBootTimeDiff.slt 0

end GDTCORClock

inductive GDTCORTarget
  | test
  | cct
  | fll
  | csh
  deriving DecidableEq

def GDTCORTarget.rawValue : GDTCORTarget → ℤ
  | test => 999
  | cct  => 1000
  | fll  => 1001
  | csh  => 1002

-- `currentTask` and `currentUploadPackage` are whether there are such.
structure GDTCCTUploader where
  CCTNextUploadTime    : Option GDTCORClock := none
  FLLNextUploadTime    : Option GDTCORClock := none
  currentTask          : Bool               := false
  currentUploadPackage : Bool               := false
  deriving DecidableEq

-- What becomes of the package that has been uploaded.
inductive Delivery
  | retryDeliveryInTheFuture
  | completeDelivery
  deriving DecidableEq

namespace GDTCCTUploader

-- Two of the targets share a time, and there is none for tests.
def setNextUploadTime (uploader : GDTCCTUploader) (target : GDTCORTarget)
    (futureUploadTime : GDTCORClock) : GDTCCTUploader :=
  match target with
  | .cct        => { uploader with CCTNextUploadTime := futureUploadTime }
  | .fll | .csh => { uploader with FLLNextUploadTime := futureUploadTime }
  | .test       => uploader

-- What is called when the upload to `target` has ended. `snapshot` is what the clocks say then, and
-- `statusCode` is zero when there is no response.
def completionHandler (uploader : GDTCCTUploader) (target : GDTCORTarget) (snapshot : GDTCORClock)
    (data : Option (List Byte)) (statusCode : ℤ) : GDTCCTUploader × Delivery :=
  let uploader :=
    match data.map decodeLogResponse with
    | none => uploader
    | some ((some nextRequestWaitMillis, _), none) =>
      uploader.setNextUploadTime target <| snapshot.clockSnapshotInTheFuture nextRequestWaitMillis
    | some _ =>
      uploader.setNextUploadTime target <| snapshot.clockSnapshotInTheFuture <| 15 * 60 * 1000
  let delivery :=
    if statusCode = 429 ∨ statusCode = 503 then .retryDeliveryInTheFuture else .completeDelivery
  ({ uploader with currentTask := false, currentUploadPackage := false }, delivery)

-- Whether the time that the backend has asked for has passed.
def transpired (uploader : GDTCCTUploader) (target : GDTCORTarget) (snapshot : GDTCORClock) :
    Bool :=
  match target with
  | .cct         => uploader.CCTNextUploadTime.any snapshot.isAfter
  | .fll         => uploader.FLLNextUploadTime.any snapshot.isAfter
  | .test | .csh => false

-- The answer, and the lines that are logged. `events` is the number of events for CSH.
def readyToUploadTarget (uploader : GDTCCTUploader) (target : GDTCORTarget)
    (snapshot : GDTCORClock) (highPriority : Bool) (events : ℕ) : Bool × List String :=
  if target = .csh ∧ 0 < events then
    (true, [])
  else if uploader.currentUploadPackage then
    (false, ["CCT: can't upload because a package is in flight"])
  else if uploader.currentTask then
    (false, ["CCT: can't upload because a task is in progress"])
  else if highPriority then
    (true, ["CCT: a high priority event is allowing an upload"])
  else
    -- The result of the comparison is overwritten.
    (true, [
      if uploader.transpired target snapshot then
        "CCT: can upload to target " ++ toString target.rawValue ++
          " because the request wait time has transpired"
      else
        "CCT: can't upload to target " ++ toString target.rawValue ++
          " because the backend asked to wait",
      "CCT: can upload to target " ++ toString target.rawValue ++
        " because nothing is preventing it"
    ])

end GDTCCTUploader
end Nanopb
