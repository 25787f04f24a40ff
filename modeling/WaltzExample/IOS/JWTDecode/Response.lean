import WaltzExample.IOS.JWTDecode.Theorems
import WaltzExample.IOS.Response.Runs

namespace IOS

open Base64 (Byte ascii)

-- The user infos that are shown of a token.
def JWT.fields : List String :=
  ["firstName", "lastName", "userEmail", "uid"]

theorem JWT.text_ne_none_iff {j : JWT} : j.text ≠ none ↔ ∀ field ∈ fields, j.body field ≠ none := by
  cases h₁ : j.body "firstName" <;> cases h₂ : j.body "lastName" <;>
  cases h₃ : j.body "userEmail" <;> cases h₄ : j.body "uid" <;>
    simp [text, fields, h₁, h₂, h₃, h₄]

namespace Foundation

variable {f : Foundation} {header body : List Byte} {h b : Payload} {signature : Text}

theorem decode_token (hf : Base64.Decodes f.base64Encoded) (hh : f.jsonObject header = some h)
    (hb : f.jsonObject body = some b) (hs : ascii '.' ∉ signature) :
    f.decode (token header body signature) = .ok {
      header    := h
      body      := b
      signature := signature
      string    := token header body signature
    } := by
  have hn := period_not_mem_encodeUrl
  rw [token, decode_of_splitOn <| splitOn_eq_iff.mpr ⟨rfl, hn header, hn body, hs⟩,
    decodeJWTPart_of_encodes hf <| encodes_encodeUrl _, ignored_encodeUrl,
    decodeJWTPart_of_encodes hf <| encodes_encodeUrl _, ignored_encodeUrl, hh, hb]
  rfl

end Foundation

namespace ViewController

variable {ι : Type} [JSON ι] {v : ViewController}

variable {f : Foundation} {header body : List Byte} {h b : Payload} {signature : Text}

-- From the bytes of a token to what is shown of it.
theorem shows_token (hf : Base64.Decodes f.base64Encoded) (hh : f.jsonObject header = some h)
    (hb : f.jsonObject body = some b) (hs : ascii '.' ∉ signature) :
    ∃ t, f.decode (token header body signature) = .ok t ∧
      let answer := handle (.answer <| .jwt .success t.jwt : Event ι)
      (answer.Completes v ↔ ∀ field ∈ JWT.fields, b field ≠ none) ∧
      (answer.after v).responseTV = (JWT.text ⟨b⟩).getD v.responseTV := by
  refine ⟨_, Foundation.decode_token hf hh hb hs, ?_, ?_⟩
  case refine_1 => exact completes_jwt_iff.trans JWT.text_ne_none_iff
  case refine_2 =>
    obtain ⟨_, ha⟩ := after_answer v (.jwt .success (some ⟨b⟩) : Answer ι)
    exact (congrArg ViewController.responseTV ha).trans rfl

section Tokens

private abbrev utf8 (object : String) : List Byte :=
  object.toList.map fun c => ⟨c.toNat % 256, Nat.mod_lt _ (by decide)⟩

private abbrev infos : String :=
  "\x7b\"firstName\":\"A\",\"lastName\":\"B\",\"userEmail\":\"a@b\",\"uid\":\"1\"\x7d"

-- The system, as far as these two objects go.
private abbrev system : Foundation where
  base64Encoded   := Base64.decode
  jsonObject data :=
    if data = utf8 infos then
      some fun
        | "firstName" => "A"
        | "lastName"  => "B"
        | "userEmail" => "a@b"
        | "uid"       => "1"
        | _           => none
    else if data = utf8 "\x7b\x7d" then
      some fun _ => none
    else
      none

theorem shows_token_infos :
    ∃ t, system.decode (token (utf8 "\x7b\x7d") (utf8 infos) ("sig".toList.map ascii)) = .ok t ∧
      let answer := handle (.answer <| .jwt .success t.jwt : Event Empty)
      answer.Completes {} ∧ (answer.after {}).responseTV = "Name: A B\nEmail: a@b\nID: 1" := by
  have hh : system.jsonObject (utf8 "\x7b\x7d") = some fun _ => none := rfl
  have hs : ascii '.' ∉ "sig".toList.map ascii := by decide
  obtain ⟨t, ht, hc, hr⟩ := shows_token (ι := Empty) (v := {}) Base64.decodes_decode hh
    (if_pos rfl) hs
  exact ⟨t, ht, hc.mpr <| by decide, hr.trans <| by decide⟩

end Tokens
end ViewController
end IOS
