import WaltzExample.Nanopb.Wire.Local
import WaltzExample.Nanopb.Message.Decode

namespace Nanopb

open Varint (Byte)
open Decoder (Local LocalAt Reads)

variable {σ : Type} {find : Find σ} {rs : List Record} {m m' : σ}

section Values

variable {dataSize : ℕ} {widen : BitVec (8 * dataSize) → BitVec 64} {value : BitVec 64}

theorem local_clamp : Local Error.Short (clamp widen value) := by
  unfold clamp
  split
  case isFalse => exact .throw _
  case isTrue =>
    dsimp only
    split
    case isTrue  => exact .throw _
    case isFalse => exact .pure _

theorem local_decBytes : Local Error.Short decBytes := by
  refine fun s => (local_decodeVarint32 s).bind fun size => ?_
  refine .of_take (n := size.toNat) (f := Counted.take size) Error.short_endOfStream fun s => ?_
  have hs : Counted.take size (s.take size.toNat) = .take size s :=
    Subtype.ext <| by simp [Counted.take, List.take_take]
  rw [hs]
  change (if s.length < size.toNat then throw .endOfStream else do
    set <| s.drop size.toNat
    return Counted.take size s : Decode _).run s = _
  split <;> rfl

theorem local_decode (ltype : LType) : Local Error.Short ltype.decode := by
  cases ltype
  case varint  => exact fun s => (local_decodeVarint s).bind fun _ => local_clamp
  case uvarint => exact fun s => (local_decodeVarint s).bind fun _ => local_clamp
  case svarint => exact fun s => (local_decodeVarint s).map.bind fun _ => local_clamp
  case bytes   => exact local_decBytes

end Values

-- Fields are decoded without looking at what comes after them.
def Find.Local (find : Find σ) : Prop :=
  ∀ wireType number x decode, find wireType number x = some decode →
    Decoder.Local Error.Short decode

theorem inherited_local : Inherited fun _ => Local Error.Short where
  map _ h     := fun s => (h s).map
  throw       := .throw
  onSubstream := local_onSubstream

theorem Fields.local_find (fields : Fields) : fields.find.Local :=
  fun _ _ _ _ hd => inherited_local.of_find local_decode hd

theorem local_decodeOrSkip (h : find.Local) (wireType : WireType) (number : BitVec 32) (m : σ) :
    Local Error.Short (find.decodeOrSkip wireType number m) := by
  unfold Find.decodeOrSkip
  split
  case h_1 hd => exact h _ _ _ _ hd
  case h_2    => exact fun s => (local_skipField wireType s).bind fun _ => .pure _

theorem local_decodeFields_step (h : find.Local) (m : σ) {s : IStream} (hs : s ≠ []) :
    LocalAt Error.Short (decodeFields.step find m) s := by
  refine (local_decodeTag hs).bind fun r => ?_
  cases r
  case none   => exact .pure _
  case some r => exact fun s => (local_decodeOrSkip h _ _ m s).map

theorem append_cut {xs ys p u : List Byte} (h : xs ++ ys = p ++ u) :
    (∃ q, p = xs ++ q ∧ ys = q ++ u) ∨ ∃ q, xs = p ++ q ∧ q ≠ [] := by
  obtain ⟨q, hp, hy⟩ | ⟨q, hx, hu⟩ := List.append_eq_append_iff.mp h
  case inl => exact .inl ⟨q, hp, hy⟩
  case inr =>
    by_cases hq : q = []
    case neg => exact .inr ⟨q, hx, hq⟩
    case pos => exact .inl ⟨[], by simp [hx, hq], by simp [hu, hq]⟩

-- A part of the records ends between two of them, or the decoder fails.
theorem Takes.truncated (h : Takes find rs m m') (hf : find.Forward) (hl : find.Local)
    {p u : List Byte} (hp : serialize rs = p ++ u) :
    (∃ rs', rs' <+: rs ∧ p = serialize rs') ∨
      ∃ e, Error.Short e ∧ (decodeFields find m).run p = .error e := by
  induction h generalizing p
  case nil =>
    obtain ⟨rfl, -⟩ := List.append_eq_nil_iff.mp hp.symm
    exact .inl ⟨[], List.nil_prefix, rfl⟩
  case cons m m' rs m'' r ht hr hs hi =>
    have hr := reads_decodeFields_step ht hr
    obtain ⟨q, rfl, hq⟩ | ⟨q, hq, hn⟩ := append_cut hp
    case inl =>
      have he : (decodeFields find m).run (r.bytes ++ q) = (decodeFields find m').run q :=
        Decoder.exhaust_of_yield (consumes_decodeFields_step hf) (by simp [r.bytes_ne_nil]) (hr q)
      rw [he]
      refine (hi hq).imp_left ?_
      intro ⟨rs', hp, hq⟩
      exact ⟨r :: rs', List.cons_prefix_cons.mpr ⟨rfl, hp⟩, by rw [hq]; rfl⟩
    case inr =>
      by_cases hp : p = []
      case pos => exact .inl ⟨[], List.nil_prefix, hp⟩
      case neg =>
        obtain ⟨e, hs, he⟩ := (local_decodeFields_step hl m hp).error_of_reads (hq ▸ hr) hn
        exact .inr ⟨e, hs, Decoder.exhaust_of_error hp he⟩

section Records

variable {α : Type} {tag : BitVec 32} {wireType : WireType} {packable : Bool}
variable {payload : α → List Byte}

theorem records_absent {htype : HType} :
    records tag wireType packable payload htype htype.absent = [] := by
  cases htype <;> rfl

theorem Fields.records_default (fields : Fields) : fields.records fields.setToDefaults = [] := by
  induction fields
  case last => rfl
  case value hi        => rw [setToDefaults, records, records_absent, hi]; rfl
  case submessage _ hi => rw [setToDefaults, records, records_absent, hi]; rfl

theorem eq_or_nil_of_prefix {r : Record} (h : rs <+: [r]) : rs = [r] ∨ rs = [] := by
  cases rs
  case nil          => exact .inr rfl
  case cons r' rs'' => simp_all

theorem records_of_prefix {htype : HType} {x : htype.Slot α}
    (h : rs <+: records tag wireType packable payload htype x) :
    ∃ y, records tag wireType packable payload htype y = rs := by
  have hs {r : Record} (hx : records tag wireType packable payload htype x = [r]) :
      ∃ y, records tag wireType packable payload htype y = rs := by
    obtain rfl | rfl := eq_or_nil_of_prefix (hx ▸ h)
    case inl => exact ⟨x, hx⟩
    case inr => exact ⟨htype.absent, records_absent⟩
  cases htype
  case optional =>
    cases x
    case some => exact hs rfl
    case none => exact ⟨none, (List.prefix_nil.mp h).symm⟩
  case repeated =>
    by_cases hx : x.val = []
    case pos =>
      rw [records, if_pos hx] at h
      exact ⟨.empty, (List.prefix_nil.mp h).symm⟩
    case neg =>
      by_cases hp : packable
      case pos => exact hs <| (if_neg hx).trans (if_pos hp)
      case neg =>
        rw [records, if_neg hx, if_neg hp] at h
        obtain ⟨ys, hy, rfl⟩ := List.prefix_map_iff.mp h
        refine ⟨⟨ys, Nat.lt_of_le_of_lt hy.length_le x.property⟩, ?_⟩
        rw [records]
        split
        case isTrue hy  => simp at hy; simp [hy]
        case isFalse hy => rfl

theorem records_append_of_prefix {htype : HType} {x : htype.Slot α} {next : Fields}
    {xs : next.Message}
    (h : rs <+: records tag wireType packable payload htype x ++ next.records xs)
    (hn : ∀ rs, rs <+: next.records xs → ∃ ys, next.records ys = rs) :
    ∃ y ys, records tag wireType packable payload htype y ++ next.records ys = rs := by
  cases List.prefix_or_prefix_of_prefix h (List.prefix_append _ _)
  case inl h =>
    obtain ⟨y, hy⟩ := records_of_prefix h
    exact ⟨y, next.setToDefaults, by rw [hy, next.records_default, List.append_nil]⟩
  case inr h' =>
    obtain ⟨rs', rfl⟩ := h'
    obtain ⟨ys, hy⟩ := hn rs' <| (List.prefix_append_right_inj _).mp h
    exact ⟨x, ys, by rw [hy]⟩

-- What the records of a message begin with are the records of a message as well.
theorem Fields.records_of_prefix {fields : Fields} {m : fields.Message}
    (h : rs <+: fields.records m) : ∃ m', fields.records m' = rs := by
  induction fields generalizing rs
  case last => exact ⟨(), (List.prefix_nil.mp h).symm⟩
  case value hi =>
    obtain ⟨y, ys, hy⟩ := records_append_of_prefix h fun _ => hi
    exact ⟨(y, ys), hy⟩
  case submessage hi =>
    obtain ⟨y, ys, hy⟩ := records_append_of_prefix h fun _ => hi
    exact ⟨(y, ys), hy⟩

end Records

end Nanopb
