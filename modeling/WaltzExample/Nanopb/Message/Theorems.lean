import WaltzExample.Nanopb.Message.Encode
import WaltzExample.Nanopb.Message.Decode

namespace Nanopb

open Varint (Byte)
open Decoder (Reads)

variable {α σ τ : Type} {r : Record} {rs : List Record} {fields : Fields} {tag : BitVec 32}

-- A field that can be passed over.
def Record.Skippable (r : Record) : Prop :=
  Fields.ValidTag r.tag ∧ Reads (skipField r.wireType) r.payload ()

section Order

variable {func : α → Decode α} {init : α} {htype : HType} {packable : Bool} {g : Find τ}
variable {x x' : htype.Slot α} {y y' : τ}

theorem decodeOrSkip_append_of_eq (wireType : WireType) :
    ((Find.field tag packable func init htype).append g).decodeOrSkip wireType tag (x, y) =
      (·, y) <$> decodeField wireType packable func init htype x := by
  simp [Find.decodeOrSkip, Find.append, Find.field]

theorem decodeOrSkip_append_of_ne {number : BitVec 32} (h : tag ≠ number) (wireType : WireType) :
    ((Find.field tag packable func init htype).append g).decodeOrSkip wireType number (x, y) =
      (x, ·) <$> g.decodeOrSkip wireType number y := by
  simp only [Find.decodeOrSkip, Find.append, Find.field, if_neg h]
  cases g wireType number y <;> simp

-- A field only depends on the records with its tag, and other fields do not depend on them.
theorem Takes.field_append
    (hf : Takes (.field tag packable func init htype) (rs.filter (·.tag = tag)) x x')
    (hg : Takes g (rs.filter (·.tag ≠ tag)) y y') :
    Takes (.append (.field tag packable func init htype) g) rs (x, y) (x', y') := by
  induction rs generalizing x y
  case nil =>
    cases hf
    cases hg
    exact .nil
  case cons r rs hi =>
    by_cases h : r.tag = tag
    case pos =>
      rw [List.filter_cons_of_pos <| by simpa] at hf
      rw [List.filter_cons_of_neg <| by simpa] at hg
      cases hf
      case cons ht hr hf =>
        refine .cons ht ?_ <| hi hf hg
        subst h
        rw [decodeOrSkip_append_of_eq]
        rw [decodeOrSkip_field] at hr
        exact hr.map
    case neg =>
      rw [List.filter_cons_of_neg <| by simpa] at hf
      rw [List.filter_cons_of_pos <| by simpa] at hg
      cases hg
      case cons ht hr hg =>
        refine .cons ht ?_ <| hi hf hg
        rw [decodeOrSkip_append_of_ne <| Ne.symm h]
        exact hr.map

theorem takes_skippable (h : ∀ r ∈ rs, r.Skippable) : Takes Fields.last.find rs () () := by
  induction rs
  case nil => exact .nil
  case cons r rs hi =>
    obtain ⟨ht, hr⟩ := h r <| List.mem_cons_self ..
    refine .cons ht ?_ <| hi fun r hr => h r <| List.mem_cons_of_mem _ hr
    rw [← List.append_nil r.payload]
    exact hr.bind <| .pure _

end Order

section Tags

theorem tag_of_mem_records {wireType : WireType} {packable : Bool} {payload : α → List Byte}
    {htype : HType} {x : htype.Slot α} (h : r ∈ records tag wireType packable payload htype x) :
    r.tag = tag := by
  cases htype
  case optional => cases x <;> simp_all [records]
  case repeated =>
    simp only [records] at h
    split at h
    case isTrue => contradiction
    case isFalse =>
      split at h
      case isTrue => simp_all
      case isFalse =>
        obtain ⟨y, -, rfl⟩ := List.mem_map.mp h
        rfl

theorem Fields.tag_mem_tags {m : fields.Message} (h : r ∈ fields.records m) :
    r.tag ∈ fields.tags := by
  induction fields
  case last => contradiction
  case value hi =>
    cases List.mem_append.mp h
    case inl h => exact tag_of_mem_records h ▸ List.mem_cons_self ..
    case inr h => exact List.mem_cons_of_mem _ <| hi h
  case submessage hi =>
    cases List.mem_append.mp h
    case inl h => exact tag_of_mem_records h ▸ List.mem_cons_self ..
    case inr h => exact List.mem_cons_of_mem _ <| hi h

end Tags

section Carries

-- The records of the fields of `m` are found in any order, as long as those of the same field
-- follow each other as they should, and there may be fields that are not known in between. The same
-- goes for each message in `m`.
def Fields.Carries : (fields : Fields) → List Record → fields.Message → Prop
  | last, rs, _ => ∀ r ∈ rs, r.Skippable
  | value tag htype ltype next, rs, (x, xs) =>
    rs.filter (·.tag = tag) =
        Nanopb.records tag ltype.wireType ltype.Packable ltype.payload htype x ∧
      next.Carries (rs.filter (·.tag ≠ tag)) xs
  | submessage tag htype ptr next, rs, (x, xs) =>
    List.Forall₂ (fun r m => ∃ rs', r = ⟨tag, .string, delimited <| serialize rs'⟩ ∧
        ptr.Carries rs' m) (rs.filter (·.tag = tag)) (htype.values x) ∧
      next.Carries (rs.filter (·.tag ≠ tag)) xs

theorem filter_cons_of_ne (rs : List Record) (h : r.tag ≠ tag) :
    (r :: rs).filter (·.tag = tag) = rs.filter (·.tag = tag) ∧
      (r :: rs).filter (·.tag ≠ tag) = r :: rs.filter (·.tag ≠ tag) :=
  ⟨List.filter_cons_of_neg (by simpa), List.filter_cons_of_pos (by simpa)⟩

theorem Fields.Carries.cons {m : fields.Message} (h : fields.Carries rs m) (hr : r.Skippable)
    (ht : r.tag ∉ fields.tags) : fields.Carries (r :: rs) m := by
  induction fields generalizing rs
  case last => exact List.forall_mem_cons.mpr ⟨hr, h⟩
  case value hi =>
    have ⟨hn, ht⟩ := not_or.mp <| mt List.mem_cons.mpr ht
    have ⟨hf, hf'⟩ := filter_cons_of_ne rs hn
    exact ⟨hf.trans h.left, hf' ▸ hi h.right ht⟩
  case submessage hi =>
    have ⟨hn, ht⟩ := not_or.mp <| mt List.mem_cons.mpr ht
    have ⟨hf, hf'⟩ := filter_cons_of_ne rs hn
    exact ⟨hf ▸ h.left, hf' ▸ hi h.right ht⟩

theorem length_payload_lt {n : ℕ} (h : (serialize rs).length < n) :
    ∀ r ∈ rs, r.payload.length < n := by
  intro r hr
  have hb := (List.sublist_flatten_of_mem <| List.mem_map_of_mem (f := Record.bytes) hr).length_le
  have hp : r.payload.length ≤ r.bytes.length := by simp [Record.bytes]
  exact Nat.lt_of_le_of_lt (Nat.le_trans hp hb) h

section Filter

variable {l n : List Record}

theorem filter_head (hl : ∀ r ∈ l, r.tag = tag) (hn : ∀ r ∈ n, r.tag ≠ tag) :
    (l ++ n).filter (·.tag = tag) = l := by
  rw [List.filter_append, List.filter_eq_self.mpr <| by simpa using hl,
    List.filter_eq_nil_iff.mpr <| by simpa using hn, List.append_nil]

theorem filter_next {number : BitVec 32} (h : number ≠ tag) (hl : ∀ r ∈ l, r.tag = tag) :
    (l ++ n).filter (·.tag = number) = n.filter (·.tag = number) := by
  have hl : l.filter (·.tag = number) = [] := by
    refine List.filter_eq_nil_iff.mpr fun r hr => ?_
    simpa [hl r hr] using Ne.symm h
  rw [List.filter_append, hl, List.nil_append]

theorem filter_filter_ne {number : BitVec 32} (h : number ≠ tag) :
    (rs.filter (·.tag ≠ tag)).filter (·.tag = number) = rs.filter (·.tag = number) := by
  rw [List.filter_filter]
  refine List.filter_congr fun r _ => ?_
  by_cases hr : r.tag = number <;> simp_all

end Filter

section Next

variable {next : Fields} {l n : List Record} {P : Record → Prop}

theorem Fields.tag_ne {m : next.Message} (hn : tag ∉ next.tags) :
    ∀ r ∈ next.records m, r.tag ≠ tag :=
  fun _ hr he => hn <| he ▸ tag_mem_tags hr

theorem known_head (hl : ∀ r ∈ l, r.tag = tag) (hn : ∀ r ∈ n, r.tag ≠ tag)
    (hk : ∀ number ∈ tag :: next.tags,
      rs.filter (·.tag = number) = (l ++ n).filter (·.tag = number)) :
    rs.filter (·.tag = tag) = l :=
  (hk tag <| List.mem_cons_self ..).trans <| filter_head hl hn

theorem known_next (hn : tag ∉ next.tags) (hl : ∀ r ∈ l, r.tag = tag)
    (hk : ∀ number ∈ tag :: next.tags,
      rs.filter (·.tag = number) = (l ++ n).filter (·.tag = number)) :
    ∀ number ∈ next.tags,
      (rs.filter (·.tag ≠ tag)).filter (·.tag = number) = n.filter (·.tag = number) := by
  intro number h
  have hd : number ≠ tag := fun hd => hn <| hd ▸ h
  rw [filter_filter_ne hd, hk number <| List.mem_cons_of_mem _ h, filter_next hd hl]

-- What holds of all known records holds of those of the first field, and of the others.
theorem forall_head (h : ∀ r ∈ rs, r.tag ∈ tag :: next.tags → P r) :
    ∀ r ∈ rs.filter (·.tag = tag), P r := by
  intro r hr
  have ⟨hr, ht⟩ := List.mem_filter.mp hr
  exact h r hr <| of_decide_eq_true ht ▸ List.mem_cons_self

theorem forall_next (h : ∀ r ∈ rs, r.tag ∈ tag :: next.tags → P r) :
    ∀ r ∈ rs.filter (·.tag ≠ tag), r.tag ∈ next.tags → P r :=
  fun r hr hn => h r (List.mem_filter.mp hr).left <| List.mem_cons_of_mem _ hn

theorem unknown_next (h : ∀ r ∈ rs, r.tag ∉ tag :: next.tags → P r) :
    ∀ r ∈ rs.filter (·.tag ≠ tag), r.tag ∉ next.tags → P r := by
  intro r hr hn
  have ⟨hr, ht⟩ := List.mem_filter.mp hr
  exact h r hr <| List.not_mem_cons_of_ne_of_not_mem (of_decide_eq_true ht) hn

end Next

-- It is enough that the records of each field are those of an encoding of `m`.
theorem Fields.carries_of_filter {m : fields.Message} (h : fields.WellFormed)
    (hk : ∀ tag ∈ fields.tags,
      rs.filter (·.tag = tag) = (fields.records m).filter (·.tag = tag))
    (hu : ∀ r ∈ rs, r.tag ∉ fields.tags → r.Skippable) : fields.Carries rs m := by
  induction fields generalizing rs
  case last => exact fun r hr => hu r hr List.not_mem_nil
  case value hi =>
    obtain ⟨-, hn, -, hw⟩ := h
    refine ⟨known_head (fun _ => tag_of_mem_records) (tag_ne hn) hk, ?_⟩
    exact hi hw (known_next hn (fun _ => tag_of_mem_records) hk) <| unknown_next hu
  case submessage hp hi =>
    obtain ⟨-, hn, hv, hw⟩ := h
    refine ⟨?_, hi hw (known_next hn (fun _ => tag_of_mem_records) hk) <| unknown_next hu⟩
    rw [known_head (fun _ => tag_of_mem_records) (tag_ne hn) hk, records_eq_map _ fun _ => rfl,
      List.forall₂_map_left_iff, List.forall₂_same]
    exact fun w _ => ⟨_, rfl, hp hv (fun _ _ => rfl) fun r hr hn => absurd (tag_mem_tags hr) hn⟩

theorem Fields.carries_records (h : fields.WellFormed) (m : fields.Message) :
    fields.Carries (fields.records m) m :=
  carries_of_filter h (fun _ _ => rfl) fun _ hr hn => absurd (tag_mem_tags hr) hn

theorem Fields.takes {m m' m'' : fields.Message} (h : fields.WellFormed)
    (hm : fields.Merges m m' m'')
    (hl : ∀ r ∈ rs, r.tag ∈ fields.tags → r.payload.length < 2 ^ 32)
    (hc : fields.Carries rs m') : Takes fields.find rs m m'' := by
  induction fields generalizing rs
  case last => exact takes_skippable hc
  case value hi =>
    obtain ⟨ht, -, hv, hw⟩ := h
    refine .field_append ?_ <| hi hw hm.right (forall_next hl) hc.right
    have hl := forall_head hl
    rw [hc.left] at hl ⊢
    exact takes_value hv ht hm.left hl
  case submessage ptr _ hp hi =>
    obtain ⟨ht, -, hv, hw⟩ := h
    refine .field_append ?_ <| hi hw hm.right (forall_next hl) hc.right
    refine takes_values ht merges_default hm.left ?_
    refine List.forall₂_and_left _ _ |>.mpr ⟨forall_head hl, hc.left⟩ |>.imp ?_
    -- Each record of a nested message holds records of its own, all of which are shorter.
    rintro _ w ⟨hlr, rs', rfl, hc⟩
    refine ⟨rfl, by simp, fun x z hm => ?_⟩
    have hb := Nat.lt_of_le_of_lt (length_le_delimited _) hlr
    have ht := hp hv hm (fun r hr _ => length_payload_lt hb r hr) hc
    exact reads_onSubstream hb <| ht.run_eq ptr.forward_find

end Carries

section Skip

theorem skippable_encode (ht : Fields.ValidTag tag) (n : ℕ) :
    Record.Skippable ⟨tag, .varint, Varint.encode n⟩ :=
  ⟨ht, reads_skipVarint <| Varint.terminated_encode n⟩

theorem skippable_delimited (ht : Fields.ValidTag tag) {body : List Byte}
    (hl : (delimited body).length < 2 ^ 32) : Record.Skippable ⟨tag, .string, delimited body⟩ :=
  ⟨ht, reads_skipString <| Nat.lt_of_le_of_lt (length_le_delimited body) hl⟩

theorem skippable_payload {ltype : LType} (ht : Fields.ValidTag tag) (x : ltype.Data)
    (hl : (ltype.payload x).length < 2 ^ 32) :
    Record.Skippable ⟨tag, ltype.wireType, ltype.payload x⟩ := by
  cases ltype
  case varint  => exact skippable_encode ht _
  case uvarint => exact skippable_encode ht _
  case svarint => exact skippable_encode ht _
  case bytes   => exact skippable_delimited ht hl

theorem skippable_records {wireType : WireType} {packable : Bool} {payload : α → List Byte}
    {htype : HType} {x : htype.Slot α} (ht : Fields.ValidTag tag)
    (h : ∀ x, (payload x).length < 2 ^ 32 → Record.Skippable ⟨tag, wireType, payload x⟩)
    (hr : r ∈ records tag wireType packable payload htype x) (hl : r.payload.length < 2 ^ 32) :
    r.Skippable := by
  cases htype
  case optional =>
    cases x
    case none   => contradiction
    case some x =>
      obtain rfl := List.mem_singleton.mp hr
      exact h x hl
  case repeated =>
    simp only [records] at hr
    split at hr
    case isTrue => contradiction
    case isFalse =>
      split at hr
      case isTrue =>
        obtain rfl := List.mem_singleton.mp hr
        exact skippable_delimited ht hl
      case isFalse =>
        obtain ⟨y, -, rfl⟩ := List.mem_map.mp hr
        exact h y hl

-- Whoever does not know a field that has been encoded can pass over it.
theorem Fields.skippable {m : fields.Message} (h : fields.WellFormed)
    (hr : r ∈ fields.records m) (hl : r.payload.length < 2 ^ 32) : r.Skippable := by
  induction fields
  case last => contradiction
  case value hi =>
    cases List.mem_append.mp hr
    case inl hr => exact skippable_records h.left (skippable_payload h.left) hr hl
    case inr hr => exact hi h.right.right.right hr
  case submessage hi =>
    cases List.mem_append.mp hr
    case inl hr =>
      exact skippable_records h.left (fun _ hl => skippable_delimited h.left hl) hr hl
    case inr hr => exact hi h.right.right.right hr

end Skip

end Nanopb
