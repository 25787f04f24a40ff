import WaltzExample.Base64.Theorems
import WaltzExample.IOS.JWTDecode.Basic

namespace IOS.Foundation

open Base64 (Byte Ascii ascii Sextet Known Decodes)

variable {f : Foundation} {value : Text} {bs : List Byte}

section Base64UrlDecode

-- All characters count for the length, also those that are skipped.
theorem lengthOfBytes_eq (s : Text) :
    lengthOfBytes s = (s.filter Known).length + s.countP (!Known ·) := by
  rw [lengthOfBytes, List.length_eq_countP_add_countP Known, List.countP_eq_length_filter]
  simp

-- The text that is handed to the decoder of the system.
def padded (value : Text) : Text :=
  base64 value ++ List.replicate ((4 - lengthOfBytes (base64 value) % 4) % 4) (ascii '=')

theorem base64UrlDecode_eq_padded : f.base64UrlDecode value = f.base64Encoded (padded value) := by
  have hp : 4 * ((lengthOfBytes (base64 value) + 3) / 4) - lengthOfBytes (base64 value) =
      (4 - lengthOfBytes (base64 value) % 4) % 4 := by omega
  simp only [base64UrlDecode, padded, hp]
  split
  case isTrue    => rfl
  case isFalse h => simp [Nat.eq_zero_of_not_pos h]

theorem filter_padded : (padded value).filter Known =
    (base64 value).filter Known ++
      List.replicate ((4 - lengthOfBytes (base64 value) % 4) % 4) (ascii '=') := by
  rw [padded, List.filter_append, List.filter_replicate_of_pos rfl]

theorem dvd_length_filter_padded :
    4 ∣ ((padded value).filter Known).length ↔ 4 ∣ ignored value := by
  have hl := lengthOfBytes_eq (base64 value)
  rw [filter_padded, List.length_append, List.length_replicate, ignored]
  omega

-- The padding is right when what is skipped takes up a multiple of four bytes.
theorem filter_padded_of_dvd (h : Encodes value bs) (hi : 4 ∣ ignored value) :
    (padded value).filter Known = Base64.encode bs := by
  have hl := lengthOfBytes_eq (base64 value)
  have hm : lengthOfBytes (base64 value) % 4 = ((base64 value).filter Known).length % 4 := by
    rw [ignored] at hi
    omega
  have hp : (padded value).filter Known = Base64.pad ((base64 value).filter Known) := by
    rw [filter_padded, hm, Base64.pad]
  rw [hp]
  cases h
  case inl h => rw [h, Base64.encode]
  case inr h =>
    have hd : 4 ∣ (Base64.encode bs).length := Base64.length_pad
    rw [h, Base64.pad_of_dvd hd]

variable (hf : Decodes f.base64Encoded)
include hf

-- Characters that are skipped count for the padding, so that there can only be four of them, or
-- eight, and so on.
theorem dvd_ignored_of_decodes (h : f.base64UrlDecode value = some bs) : 4 ∣ ignored value := by
  rw [base64UrlDecode_eq_padded] at h
  exact dvd_length_filter_padded.mp <| hf.aligned _ _ h

theorem base64UrlDecode_eq (h : Encodes value bs) :
    f.base64UrlDecode value = if 4 ∣ ignored value then some bs else none := by
  split
  case isTrue hi =>
    rw [base64UrlDecode_eq_padded, ← hf.ignore, filter_padded_of_dvd h hi, hf.encode]
  case isFalse hi =>
    exact Option.eq_none_iff_forall_ne_some.mpr fun _ hd => hi <| dvd_ignored_of_decodes hf hd

end Base64UrlDecode

section EncodeUrl

theorem replace_urlDigit (s : Sextet) :
    (if (if Base64.urlDigit s = ascii '-' then ascii '+' else Base64.urlDigit s) = ascii '_' then
      ascii '/'
    else if Base64.urlDigit s = ascii '-' then
      ascii '+'
    else
      Base64.urlDigit s) = Base64.digit s := by
  revert s
  decide

theorem base64_encodeUrl (bs : List Byte) : base64 (Base64.encodeUrl bs) = Base64.unpadded bs := by
  simp [base64, replacingOccurrences, Base64.encodeUrl, Base64.unpadded, replace_urlDigit]

theorem filter_known_unpadded (bs : List Byte) :
    (Base64.unpadded bs).filter Known = Base64.unpadded bs :=
  List.filter_eq_self.mpr fun _ => Base64.known_of_mem_unpadded

theorem encodes_encodeUrl (bs : List Byte) : Encodes (Base64.encodeUrl bs) bs :=
  .inl <| by rw [base64_encodeUrl, filter_known_unpadded]

theorem ignored_encodeUrl (bs : List Byte) : ignored (Base64.encodeUrl bs) = 0 := by
  have hn : (Base64.unpadded bs).filter (!Known ·) = [] :=
    List.filter_eq_nil_iff.mpr fun c hc => by simp [Base64.known_of_mem_unpadded hc]
  rw [ignored, base64_encodeUrl, List.countP_eq_length_filter, hn]
  rfl

theorem period_not_mem_encodeUrl (bs : List Byte) : ascii '.' ∉ Base64.encodeUrl bs := by
  have h : ∀ s : Sextet, Base64.urlDigit s ≠ ascii '.' := by decide
  simp [Base64.encodeUrl, h]

end EncodeUrl

section Parts

variable {p q r jwt : Text}

theorem not_mem_of_mem_splitOn {part : Text} {c : Ascii} (h : part ∈ jwt.splitOn c) : c ∉ part := by
  induction jwt generalizing part
  case nil => simp_all
  case cons d jwt ih =>
    rw [List.splitOn_cons_eq_if_modifyHead] at h
    have ⟨p, ps, hs⟩ := List.exists_cons_of_ne_nil <| List.splitOn_ne_nil c jwt
    rw [hs] at h ih
    by_cases hd : d = c
    case pos =>
      rw [if_pos <| by simpa using hd] at h
      cases List.mem_cons.mp h
      case inl he => simp [he]
      case inr hp => exact ih hp
    case neg =>
      rw [if_neg <| by simpa using hd, List.modifyHead_cons] at h
      cases List.mem_cons.mp h
      case inl he => simpa [he, Ne.symm hd] using ih List.mem_cons_self
      case inr hp => exact ih <| List.mem_cons_of_mem _ hp

theorem length_splitOn (c : Ascii) : (jwt.splitOn c).length = jwt.count c + 1 := by
  induction jwt
  case nil => rfl
  case cons d jwt ih =>
    rw [List.splitOn_cons_eq_if_modifyHead]
    split
    case isTrue hd  => simp [ih, List.count_cons, hd]
    case isFalse hd => simp [ih, List.count_cons, hd]

theorem splitOn_eq_iff : jwt.splitOn (ascii '.') = [p, q, r] ↔
    jwt = p ++ ascii '.' :: q ++ ascii '.' :: r ∧
      ascii '.' ∉ p ∧ ascii '.' ∉ q ∧ ascii '.' ∉ r := by
  constructor
  case mp =>
    intro h
    have hj : [ascii '.'].intercalate (jwt.splitOn <| ascii '.') = jwt :=
      List.intercalate_splitOn (ascii '.')
    have hn (part : Text) (hp : part ∈ [p, q, r]) : ascii '.' ∉ part :=
      not_mem_of_mem_splitOn (h ▸ hp)
    rw [h] at hj
    refine ⟨by simpa using hj.symm, hn p ?_, hn q ?_, hn r ?_⟩ <;> simp
  case mpr =>
    rintro ⟨rfl, hp, hq, hr⟩
    rw [List.append_assoc, List.cons_append, List.splitOn_append_cons_self_of_not_mem hp,
      List.splitOn_append_cons_self_of_not_mem hq, List.splitOn_eq_singleton hr]

end Parts

section Decode

variable {p q r jwt : Text} {header body : List Byte}

theorem decode_of_splitOn (h : jwt.splitOn (ascii '.') = [p, q, r]) : f.decode jwt = do
    let header ← f.decodeJWTPart p
    let body ← f.decodeJWTPart q
    return { header, body, signature := r, string := jwt } := by
  simp [decode, h]

theorem decode_of_count_ne (h : jwt.count (ascii '.') ≠ 2) :
    f.decode jwt = .error (.invalidPartCount jwt <| jwt.count (ascii '.') + 1) := by
  have hl : (jwt.splitOn <| ascii '.').length = jwt.count (ascii '.') + 1 :=
    length_splitOn (ascii '.')
  rw [decode]
  split
  case h_1 hs => simp [hs] at hl; omega
  case h_2    => rw [hl]; rfl

-- A token is accepted when it has three parts and the first two are right. Nothing is asked of the
-- signature.
theorem decode_eq_ok_iff {t : DecodedJWT} : f.decode jwt = .ok t ↔
    ∃ p q r, jwt = p ++ ascii '.' :: q ++ ascii '.' :: r ∧
      ascii '.' ∉ p ∧ ascii '.' ∉ q ∧ ascii '.' ∉ r ∧
      f.decodeJWTPart p = .ok t.header ∧ f.decodeJWTPart q = .ok t.body ∧
      t.signature = some r ∧ t.string = jwt := by
  constructor
  case mp =>
    intro h
    rw [decode] at h
    split at h
    case h_2 => cases h
    case h_1 p q r hs =>
      have ⟨hj, hp, hq, hr⟩ := splitOn_eq_iff.mp hs
      cases hh : f.decodeJWTPart p
      case error => rw [hh] at h; cases h
      case ok header =>
        cases hb : f.decodeJWTPart q
        case error   => rw [hh, hb] at h; cases h
        case ok body =>
          rw [hh, hb] at h
          cases h
          exact ⟨p, q, r, hj, hp, hq, hr, hh, hb, rfl, rfl⟩
  case mpr =>
    rintro ⟨p, q, r, hj, hp, hq, hr, hh, hb, hs, ht⟩
    rw [decode_of_splitOn <| splitOn_eq_iff.mpr ⟨hj, hp, hq, hr⟩, hh, hb]
    cases t
    cases hs
    cases ht
    rfl

theorem decodeJWTPart_eq : f.decodeJWTPart value = (f.base64UrlDecode value).elim
    (.error <| .invalidBase64Url value)
    fun bs => (f.jsonObject bs).elim (.error <| .invalidJSON value) .ok := by
  rw [decodeJWTPart]
  cases f.base64UrlDecode value
  case none => rfl
  case some bs =>
    dsimp only
    cases hj : f.jsonObject bs <;> simp only [Option.elim, hj] <;> rfl

-- A token that does not have three parts is at fault as a whole, and otherwise the error is about
-- the first part that is at fault.
theorem decode_eq_error_iff {e : DecodeError} : f.decode jwt = .error e ↔
    (jwt.count (ascii '.') ≠ 2 ∧ e = .invalidPartCount jwt (jwt.count (ascii '.') + 1)) ∨
    ∃ p q r, jwt = p ++ ascii '.' :: q ++ ascii '.' :: r ∧
      ascii '.' ∉ p ∧ ascii '.' ∉ q ∧ ascii '.' ∉ r ∧
      (f.decodeJWTPart p = .error e ∨
        (∃ header, f.decodeJWTPart p = .ok header) ∧ f.decodeJWTPart q = .error e) := by
  constructor
  case mp =>
    intro h
    by_cases hc : jwt.count (ascii '.') = 2
    case neg =>
      rw [decode_of_count_ne hc] at h
      exact .inl ⟨hc, Except.error.inj h |>.symm⟩
    case pos =>
      have hl : (jwt.splitOn (ascii '.')).length = 3 := by rw [length_splitOn, hc]
      obtain ⟨p, q, r, hs⟩ := List.length_eq_three.mp hl
      have ⟨hj, hp, hq, hr⟩ := splitOn_eq_iff.mp hs
      rw [decode_of_splitOn hs] at h
      refine .inr ⟨p, q, r, hj, hp, hq, hr, ?_⟩
      cases hh : f.decodeJWTPart p
      case error => rw [hh] at h; cases h; exact .inl rfl
      case ok =>
        cases hb : f.decodeJWTPart q
        case error => rw [hh, hb] at h; cases h; exact .inr ⟨⟨_, rfl⟩, rfl⟩
        case ok    => rw [hh, hb] at h; cases h
  case mpr =>
    intro h
    rcases h with ⟨hc, rfl⟩ | ⟨p, q, r, hj, hp, hq, hr, h⟩
    case inl => exact decode_of_count_ne hc
    case inr =>
      rw [decode_of_splitOn <| splitOn_eq_iff.mpr ⟨hj, hp, hq, hr⟩]
      rcases h with hh | ⟨⟨_, hh⟩, hb⟩
      case inl => rw [hh]; rfl
      case inr => rw [hh, hb]; rfl

variable (hf : Decodes f.base64Encoded)
include hf

theorem decodeJWTPart_of_encodes (h : Encodes value bs) : f.decodeJWTPart value =
    if 4 ∣ ignored value then
      (f.jsonObject bs).elim (.error <| .invalidJSON value) .ok
    else
      .error <| .invalidBase64Url value := by
  rw [decodeJWTPart_eq, base64UrlDecode_eq hf h]
  split <;> rfl

variable {h b : Payload} (hp : Encodes p header) (hq : Encodes q body)
variable (hh : f.jsonObject header = some h) (hb : f.jsonObject body = some b)
include hp hq hh hb

-- However the parts are written down, the token is decoded to what they stand for, unless what is
-- skipped makes the padding wrong.
theorem decode_of_encodes (hn : ascii '.' ∉ p ∧ ascii '.' ∉ q ∧ ascii '.' ∉ r) :
    f.decode (p ++ ascii '.' :: q ++ ascii '.' :: r) =
      if ¬4 ∣ ignored p then .error <| .invalidBase64Url p
      else if ¬4 ∣ ignored q then .error <| .invalidBase64Url q
      else .ok {
        header    := h
        body      := b
        signature := r
        string    := p ++ ascii '.' :: q ++ ascii '.' :: r
      } := by
  rw [decode_of_splitOn <| splitOn_eq_iff.mpr ⟨rfl, hn⟩, decodeJWTPart_of_encodes hf hp,
    decodeJWTPart_of_encodes hf hq, hh, hb]
  split_ifs <;> rfl

end Decode

section Tokens

-- The system, as far as the empty object goes.
private abbrev system : Foundation where
  base64Encoded   := Base64.decode
  jsonObject data := if data = [123, 125] then some fun _ => none else none

private abbrev text (s : String) : Text :=
  s.toList.map ascii

-- A line break after the header does no harm when it is two carriage returns and two line feeds,
-- but the one in the body does.
theorem decode_broken :
    system.decode (text "e30\r\n\r\n" ++ ascii '.' :: text "e3\n0=" ++ ascii '.' :: text "sig") =
      .error (.invalidBase64Url <| text "e3\n0=") :=
  have hp : Encodes (text "e30\r\n\r\n") [123, 125] := .inl <| by decide
  have hq : Encodes (text "e3\n0=") [123, 125] := .inr <| by decide
  have hj : system.jsonObject [123, 125] = some fun _ => none := rfl
  have h := decode_of_encodes (r := text "sig") Base64.decodes_decode hp hq hj hj (by decide)
  h.trans <| by rw [if_neg <| by decide, if_pos <| by decide]

end Tokens
end IOS.Foundation
