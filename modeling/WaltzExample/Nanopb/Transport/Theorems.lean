import WaltzExample.Nanopb.Message.Theorems
import WaltzExample.Nanopb.Message.Truncation
import WaltzExample.Nanopb.Transport.Basic

namespace Nanopb

open Varint (Byte)

variable {fields : Fields} {m m' m'' : fields.Message} {data data' : List Byte} {rs : List Record}

private abbrev tier : QosTierConfiguration.Message :=
  (some 3, none, ())

private abbrev source : QosTierConfiguration.Message :=
  (some 4, some 7, ())

private theorem transportBytes_tier :
    transportBytes QosTierConfiguration tier = .ok [16, 3] :=
  rfl

private theorem transportBytes_source :
    transportBytes QosTierConfiguration source = .ok [16, 4, 24, 7] :=
  rfl

section Encode

theorem getEncodedSize_eq (h : fields.WellFormed) (m : fields.Message) :
    getEncodedSize fields m = .ok (fields.wire m).length := by
  rw [getEncodedSize, Fields.encode_eq h, run_write_sizing]
  rfl

theorem transportBytes_eq (h : fields.WellFormed) (m : fields.Message) :
    transportBytes fields m = .ok (fields.wire m) := by
  rw [transportBytes, Fields.encode_eq h, run_write_sizing]
  simp [bind, Except.bind, run_write, ostreamFromBuffer]
  rfl

theorem wire_eq (h : fields.WellFormed) (hd : transportBytes fields m = .ok data) :
    fields.wire m = data := by
  rw [transportBytes_eq h] at hd
  injection hd

-- The bytes of a message do not depend on the stream, their number is the size that is measured,
-- and the only thing that can go wrong is that there is no room for them.
theorem run_encode (h : fields.WellFormed) (m : fields.Message) :
    ∃ data : List Byte, getEncodedSize fields m = .ok data.length ∧
      (∀ stream, stream.state = none → (fields.encode m).run stream =
        .ok ((), { stream with bytesWritten := stream.bytesWritten + data.length })) ∧
      ∀ stream state, stream.state = some state → (fields.encode m).run stream =
        if stream.left < data.length then .error .streamFull else .ok ((), {
          state        := some <| state ++ data
          left         := stream.left - data.length
          bytesWritten := stream.bytesWritten + data.length
        }) := by
  refine ⟨fields.wire m, getEncodedSize_eq h m, fun stream hs => ?_, fun stream state hs => ?_⟩
  all_goals rw [Fields.encode_eq h, run_write, hs]

theorem run_encode_tier :
    ∃ data : List Byte, getEncodedSize QosTierConfiguration tier = .ok data.length ∧
      (∀ stream, stream.state = none → (QosTierConfiguration.encode tier).run stream =
        .ok ((), { stream with bytesWritten := stream.bytesWritten + data.length })) ∧
      ∀ stream state, stream.state = some state → (QosTierConfiguration.encode tier).run stream =
        if stream.left < data.length then .error .streamFull else .ok ((), {
          state        := some <| state ++ data
          left         := stream.left - data.length
          bytesWritten := stream.bytesWritten + data.length
        }) :=
  run_encode (by decide) tier

end Encode

section Decode

theorem takes_records (h : fields.WellFormed) (hl : (fields.wire m').length < 2 ^ 32)
    (hm : fields.Merges m m' m'') : Takes fields.find (fields.records m') m m'' :=
  Fields.takes h hm (fun r hr _ => length_payload_lt hl r hr) <| fields.carries_records h m'

theorem takes_wire (h : fields.WellFormed) (hl : (fields.wire m).length < 2 ^ 32) :
    Takes fields.find (fields.records m) fields.setToDefaults m :=
  takes_records h hl <| Fields.merges_default m

theorem run_decode_wire (h : fields.WellFormed) (hl : (fields.wire m).length < 2 ^ 32) :
    (decode fields).run (fields.wire m) = .ok (m, []) :=
  (takes_wire h hl).run_eq fields.forward_find

theorem decode_transportBytes (h : fields.WellFormed) (m : fields.Message) :
    ∃ data : List Byte, transportBytes fields m = .ok data ∧
      (data.length < 2 ^ 32 → (decode fields).run data = .ok (m, [])) :=
  ⟨fields.wire m, transportBytes_eq h m, run_decode_wire h⟩

theorem decode_tier :
    ∃ data : List Byte, transportBytes QosTierConfiguration tier = .ok data ∧
      (data.length < 2 ^ 32 → (decode QosTierConfiguration).run data = .ok (tier, [])) :=
  decode_transportBytes (by decide) tier

-- What the two transports send can be decoded by whoever knows the same descriptions.
theorem decode_iCoreConfiguration (m : ICoreConfiguration.Message) :
    ∃ data : List Byte, transportBytes ICoreConfiguration m = .ok data ∧
      (data.length < 2 ^ 32 → (decode ICoreConfiguration).run data = .ok (m, [])) := by
  have h : ICoreConfiguration.WellFormed := by decide
  exact ⟨_, transportBytes_eq h m, run_decode_wire h⟩

theorem decode_batchedLogRequest (m : BatchedLogRequest.Message) :
    ∃ data : List Byte, encodeBatchedLogRequest m = .ok data ∧
      (data.length < 2 ^ 32 → (decode BatchedLogRequest).run data = .ok (m, [])) := by
  have h : BatchedLogRequest.WellFormed := by decide
  exact ⟨_, transportBytes_eq h m, run_decode_wire h⟩

-- The fields of a message and of those in it can come in any order, with unknown ones in between.
theorem decode_of_carries (h : fields.WellFormed)
    (hl : ∀ r ∈ rs, r.tag ∈ fields.tags → r.payload.length < 2 ^ 32) (hc : fields.Carries rs m) :
    (decode fields).run (serialize rs) = .ok (m, []) :=
  (Fields.takes h (Fields.merges_default m) hl hc).run_eq fields.forward_find

private abbrev unknown : Record :=
  ⟨9, .varint, Varint.encode 300⟩

private theorem skippable_unknown : unknown.Skippable :=
  skippable_encode (by decide) 300

private abbrev mixedTier : List Record :=
  [⟨3, .varint, Varint.encode 7⟩, unknown, ⟨2, .varint, Varint.encode 4⟩]

private theorem carries_mixedTier : QosTierConfiguration.Carries mixedTier source :=
  ⟨rfl, rfl, List.forall_mem_singleton.mpr skippable_unknown⟩

private abbrev mixedOverride : List Record :=
  [⟨2, .varint, Varint.encode 5⟩, unknown, ⟨1, .string, delimited <| serialize mixedTier⟩]

private theorem carries_mixedOverride :
    QosTiersOverride.Carries mixedOverride (⟨[source], by decide⟩, some 5, ()) :=
  ⟨.cons ⟨_, rfl, carries_mixedTier⟩ .nil, rfl, List.forall_mem_singleton.mpr skippable_unknown⟩

private abbrev mixedResponse : List Record :=
  [⟨3, .string, delimited <| serialize mixedOverride⟩, ⟨1, .varint, Varint.encode 1000⟩]

theorem decode_mixedResponse :
    (decode LogResponse).run (serialize mixedResponse) =
      .ok ((some 1000, some (⟨[source], by decide⟩, some 5, ()), ()), []) := by
  refine decode_of_carries (by decide) (fun r hr _ => ?_) ⟨rfl, ?_, nofun⟩
  case refine_1 => revert r; decide +kernel
  case refine_2 => exact .cons ⟨_, rfl, carries_mixedOverride⟩ .nil

-- Messages that follow each other are merged.
theorem decode_append (h : fields.WellFormed) (hd : transportBytes fields m = .ok data)
    (hd' : transportBytes fields m' = .ok data') (hl : data.length < 2 ^ 32)
    (hl' : data'.length < 2 ^ 32) (hm : fields.Merges m m' m'') :
    (decode fields).run (data ++ data') = .ok (m'', []) := by
  rw [← wire_eq h hd] at hl ⊢
  rw [← wire_eq h hd'] at hl' ⊢
  rw [Fields.wire, Fields.wire, ← serialize_append]
  exact ((takes_wire h hl).append <| takes_records h hl' hm).run_eq fields.forward_find

theorem decode_tiers :
    (decode QosTierConfiguration).run ([16, 3] ++ [16, 4, 24, 7]) = .ok (source, []) :=
  decode_append (by decide) transportBytes_tier transportBytes_source (by decide) (by decide)
    ⟨⟨_, rfl, rfl⟩, ⟨_, rfl, rfl⟩, trivial⟩

-- A tag of zero ends a message, whatever comes after it.
theorem decode_nullterminated (h : fields.WellFormed) (hd : transportBytes fields m = .ok data)
    (hl : data.length < 2 ^ 32) (s : IStream) :
    (decode fields).run (data ++ 0 :: s) = .ok (m, s) := by
  have ht := takes_wire h <| wire_eq h hd ▸ hl
  have hz : (decodeFields.step fields.find m).run (0 :: s) = .ok (.done m, s) := rfl
  rw [← wire_eq h hd]
  exact (ht.run fields.forward_find _).trans <| Decoder.exhaust_of_done (by simp) hz

theorem decode_tier_nullterminated :
    (decode QosTierConfiguration).run ([16, 3] ++ 0 :: [255]) = .ok (tier, [255]) :=
  decode_nullterminated (by decide) transportBytes_tier (by decide) [255]

-- A message can be decoded by someone who only knows some of its fields.
theorem decode_of_newer {newer : Fields} {n : newer.Message} (h : fields.WellFormed)
    (hn : newer.WellFormed) (hd : transportBytes newer n = .ok data) (hl : data.length < 2 ^ 32)
    (hm : ∀ tag ∈ fields.tags,
      (newer.records n).filter (·.tag = tag) = (fields.records m).filter (·.tag = tag)) :
    (decode fields).run data = .ok (m, []) := by
  have hb : (serialize <| newer.records n).length < 2 ^ 32 := by
    rw [← wire_eq hn hd] at hl
    exact hl
  have hs := length_payload_lt hb
  have hc : fields.Carries (newer.records n) m :=
    Fields.carries_of_filter h hm fun r hr _ => newer.skippable hn hr <| hs r hr
  rw [← wire_eq hn hd]
  exact (Fields.takes h (Fields.merges_default m) (fun r hr _ => hs r hr) hc).run_eq
    fields.forward_find

theorem decode_response :
    (decode <| Fields.int64 1 <| .last).run [8, 232, 7, 26, 0] = .ok ((some 1000, ()), []) := by
  have hd : transportBytes LogResponse (some 1000, some (.empty, none, ()), ()) =
      .ok [8, 232, 7, 26, 0] := rfl
  refine decode_of_newer (by decide) (by decide) hd (by decide) fun tag h => ?_
  obtain rfl := List.mem_singleton.mp h
  rfl

-- What is left of a message that has been cut off is only decoded when it is the encoding of a
-- message with fewer fields.
theorem decode_of_prefix (h : fields.WellFormed) (hd : transportBytes fields m = .ok data)
    (hl : data.length < 2 ^ 32) (hp : data' <+: data) :
    (∃ m' : fields.Message, fields.records m' <+: fields.records m ∧
      transportBytes fields m' = .ok data' ∧ (decode fields).run data' = .ok (m', [])) ∨
      (decode fields).run data' = .error .endOfStream ∨
      (decode fields).run data' = .error .parentStreamTooShort := by
  obtain ⟨u, hu⟩ := hp
  have ht := takes_wire h <| wire_eq h hd ▸ hl
  have hs : serialize (fields.records m) = data' ++ u := (wire_eq h hd).trans hu.symm
  obtain ⟨rs, hr, rfl⟩ | ⟨e, he, hr⟩ := ht.truncated fields.forward_find fields.local_find hs
  case inl =>
    obtain ⟨m', rfl⟩ := Fields.records_of_prefix hr
    have hd' := transportBytes_eq h m'
    have hl' : (fields.wire m').length < 2 ^ 32 := by
      rw [← hu, List.length_append] at hl
      exact Nat.lt_of_le_of_lt (Nat.le_add_right ..) hl
    exact .inl ⟨m', hr, hd', run_decode_wire h hl'⟩
  case inr =>
    refine .inr ?_
    cases e
    case endOfStream          => exact .inl hr
    case parentStreamTooShort => exact .inr hr
    all_goals contradiction

theorem decode_source_of_prefix :
    (∃ m' : QosTierConfiguration.Message,
      QosTierConfiguration.records m' <+: QosTierConfiguration.records source ∧
      transportBytes QosTierConfiguration m' = .ok [16, 4, 24] ∧
      (decode QosTierConfiguration).run [16, 4, 24] = .ok (m', [])) ∨
      (decode QosTierConfiguration).run [16, 4, 24] = .error .endOfStream ∨
      (decode QosTierConfiguration).run [16, 4, 24] = .error .parentStreamTooShort :=
  decode_of_prefix (by decide) transportBytes_source (by decide) ⟨[7], rfl⟩

end Decode

end Nanopb
