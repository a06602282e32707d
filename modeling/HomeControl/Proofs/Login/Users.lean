import HomeControl.Login.Users
import HomeControl.Proofs.Text.Utf8

/-!
# Honest responses

A body is split at its first semicolon, whatever follows it. So a user who knows the password answers
every challenge correctly (`verify_responseBody`), provided that the name holds no semicolon.
-/

namespace HomeControl

namespace ResponseBody

/-- What a body gives as a name: all before its first semicolon. -/
def name (body : Bytes) : Bytes :=
  body.takeWhile (· != separator)

variable {before body : Bytes}

theorem ne_separator (hb : separator ∉ before) : ∀ b ∈ before, (b != separator) = true :=
  fun _ hmem => bne_iff_ne.2 fun hs => hb (hs ▸ hmem)

/-- The name in a body ends at the first separator. -/
theorem name_append_separator (hb : separator ∉ before) (after : Bytes) :
    name (before ++ separator :: after) = before := by
  rw [name, List.takeWhile_append_of_pos (ne_separator hb)]
  simp

/-- What is left behind the name starts with the separator. -/
theorem dropWhile_append_separator (hb : separator ∉ before) (after : Bytes) :
    (before ++ separator :: after).dropWhile (· != separator) = separator :: after := by
  rw [List.dropWhile_append_of_pos (ne_separator hb)]
  simp

theorem dropWhile_eq_nil (hs : separator ∉ body) : body.dropWhile (· != separator) = [] := by
  rw [← List.append_nil body, List.dropWhile_append_of_pos (ne_separator hs), List.dropWhile_nil]

end ResponseBody

namespace Users

theorem separator_mem_encode {name : String} : separator ∈ Utf8.encode name ↔ ';' ∈ name.toList := by
  rw [Utf8.mem_encode_iff (by decide)]
  constructor
  · rintro ⟨c, hc, hn⟩
    have hs : c = ';' := by
      rw [← Char.ofNat_toNat c, hn]
      rfl
    exact hs ▸ hc
  · exact fun hc => ⟨';', hc, rfl⟩

/-- The response of a user with the right password is accepted. -/
theorem verify_responseBody {us : Users} {login : Login}
    (hs : us.secret? login.username = some (deriveSecret login.password))
    (hn : ';' ∉ login.username.toList) (challenge : Bytes) :
    us.verify challenge (login.responseBody challenge) = true := by
  rw [← separator_mem_encode] at hn
  have ht := ResponseBody.name_append_separator hn (respond challenge (deriveSecret login.password))
  have hd := ResponseBody.dropWhile_append_separator hn (respond challenge (deriveSecret login.password))
  rw [ResponseBody.name] at ht
  simp [verify, Login.responseBody, ht, hd, Utf8.decode?_encode, hs]

end Users

end HomeControl
