import WaltzExample.Nanopb.Message.Format

namespace Nanopb

open Varint (Byte)

variable {α : Type} {func : α → Encode} {payload : α → List Byte} {body : List Byte}

theorem forM_eq_write (h : ∀ x, func x = write (payload x)) (xs : List α) :
    forM xs func = write (xs.flatMap payload) := by
  induction xs
  case nil => simp
  case cons x xs hi => rw [List.forM_cons, h, hi, List.flatMap_cons, write_append]

theorem run_write_sizing (body : List Byte) :
    (write body).run .sizing = .ok ((), { OStream.sizing with bytesWritten := body.length }) := by
  simp [run_write, OStream.sizing]

theorem LType.encode_eq {ltype : LType} (h : ltype.Valid) (x : ltype.Data) :
    ltype.encode x = write (ltype.payload x) := by
  cases ltype
  case varint  => exact (if_pos h).trans <| encodeVarint_eq _
  case uvarint => exact (if_pos h).trans <| encodeVarint_eq _
  case svarint => exact (if_pos h).trans <| encodeVarint_eq _
  case bytes   => exact encodeString_eq _

-- Writing in a second pass what has been measured in the first one.
theorem encodeSized_eq (body : List Byte) :
    (do
      encodeVarint <| BitVec.ofNat 64 body.length
      if (← get).state.isNone then writeSize body.length else write body : Encode) =
      write (delimited body) := by
  rw [delimited, write_append, ← encodeVarint_eq]
  refine congrArg (encodeVarint _ >>= ·) <| funext fun _ => funext fun stream => ?_
  obtain ⟨state, left, bytesWritten⟩ := stream
  cases state <;> rfl

theorem liftM_ok_bind {β : Type} (b : β) (f : β → Encode) :
    (liftM (.ok b : Except Error β) >>= f : Encode) = f b :=
  rfl

theorem encSubmessage_eq {encode : Encode} (h : encode = write body) :
    encSubmessage encode = write (delimited body) := by
  subst h
  rw [delimited, write_append, ← encodeVarint_eq, encSubmessage, run_write_sizing, liftM_ok_bind]
  refine congrArg (encodeVarint _ >>= ·) <| funext fun _ => funext fun stream => ?_
  obtain ⟨state, left, bytesWritten⟩ := stream
  cases state
  case none => rfl
  case some state =>
    change StateT.run (if left < body.length then throw .streamFull else _) _ = (write body).run _
    by_cases hl : left < body.length
    case pos => simp [run_write, hl]; rfl
    case neg =>
      simp [run_write, hl, liftM_ok_bind]
      rfl

theorem encodeArray_eq (tag : BitVec 32) (wireType : WireType) (packable : Bool)
    (h : ∀ x, func x = write (payload x)) (xs : Counted α) :
    encodeArray tag wireType packable func xs.val =
      write (serialize <| records tag wireType packable payload .repeated xs) := by
  obtain ⟨xs, hx⟩ := xs
  unfold encodeArray records
  by_cases hn : xs = []
  case pos => simp [hn]
  case neg =>
    cases packable
    case true =>
      simp only [if_neg hn, if_true, serialize_cons, serialize_nil, List.append_nil, Record.bytes,
        forM_eq_write h, run_write_sizing, liftM_ok_bind, encodeTag_eq, encodeSized_eq,
        write_append]
    case false =>
      have hr x : (do encodeTag wireType tag; func x) =
          write (Record.bytes ⟨tag, wireType, payload x⟩) := by
        rw [Record.bytes, write_append, encodeTag_eq, h]
      simp [hn, forM_eq_write hr, serialize, List.flatMap_map]

theorem encodeField_eq (tag : BitVec 32) (wireType : WireType) (packable : Bool)
    (h : ∀ x, func x = write (payload x)) (htype : HType) (x : htype.Slot α) :
    encodeField tag wireType packable func htype x =
      write (serialize <| records tag wireType packable payload htype x) := by
  cases htype
  case repeated => exact encodeArray_eq tag wireType packable h x
  case optional =>
    cases x
    case none   => simp [encodeField, records]
    case some x => simp [encodeField, records, Record.bytes, encodeTag_eq, h, write_append]

theorem Fields.encode_eq {fields : Fields} (h : fields.WellFormed) (m : fields.Message) :
    fields.encode m = write (fields.wire m) := by
  induction fields
  case last => simp [encode, wire, records]
  case value tag htype ltype next hi =>
    obtain ⟨x, xs⟩ := m
    obtain ⟨-, -, hl, hn⟩ := h
    rw [encode, encodeField_eq _ _ _ (LType.encode_eq hl), hi hn, wire, wire, records,
      serialize_append, write_append]
  case submessage tag htype ptr next hp hi =>
    obtain ⟨x, xs⟩ := m
    obtain ⟨-, -, hl, hn⟩ := h
    rw [encode, encodeField_eq _ _ _ (fun m => encSubmessage_eq <| hp hl m), hi hn, wire, wire,
      records, serialize_append, write_append]
    rfl

end Nanopb
