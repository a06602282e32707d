import HomeControl.Proofs.Login.Bodies
import HomeControl.Settings.UserTable
import Mathlib.Data.List.Induction

/-!
# Configured users

Of several passwords that a list gives for a name the last one counts (`secret?_ofPasswords`). With it a
configured user can log in, whatever the challenge, if there is no semicolon in the name; with one there
the server takes what stands before it for the name, and no body that the user sends is accepted
(`configured_user_accepted_iff`).
-/

namespace HomeControl

namespace Users

theorem lookup_filter_ne (entries : List (String × Secret)) (name other : String) :
    (entries.filter (·.1 != name)).lookup other =
      if other = name then none else entries.lookup other := by
  induction entries with
  | nil => simp
  | cons e es ih =>
    obtain ⟨n, s⟩ := e
    by_cases hn : n = name
    · subst hn
      rw [List.filter_cons_of_neg (by simp), ih]
      by_cases ho : other = n
      · rw [if_pos ho, if_pos ho]
      · rw [if_neg ho, if_neg ho, List.lookup_cons, beq_false_of_ne ho]
    · rw [List.filter_cons_of_pos (by simpa using hn), List.lookup_cons, List.lookup_cons, ih]
      by_cases ho : other = n
      · subst ho
        simp [hn]
      · rw [beq_false_of_ne ho]

theorem secret?_insert (us : Users) (name other : String) (secret : Secret) :
    (us.insert name secret).secret? other =
      if other = name then some secret else us.secret? other := by
  rw [secret?, insert, List.lookup_append, lookup_filter_ne]
  by_cases ho : other = name
  · simp [ho]
  · rw [if_neg ho, if_neg ho, List.lookup_cons, beq_false_of_ne ho, List.lookup_nil, Option.or_none]
    rfl

theorem ofPasswords_concat (pairs : List (String × String)) (pair : String × String) :
    ofPasswords (pairs ++ [pair]) = (ofPasswords pairs).insert pair.1 (deriveSecret pair.2) := by
  rw [ofPasswords, List.foldl_append]
  rfl

/-- Of the passwords for a name the last one counts. -/
theorem secret?_ofPasswords (before : List (String × String)) {after : List (String × String)}
    {name : String} (password : String) (hlast : ∀ pair ∈ after, pair.1 ≠ name) :
    (ofPasswords (before ++ (name, password) :: after)).secret? name =
      some (deriveSecret password) := by
  induction after using List.reverseRecOn with
  | nil => rw [ofPasswords_concat, secret?_insert, if_pos rfl]
  | append_singleton after pair ih =>
    have hpair : name ≠ pair.1 := (hlast pair (by simp)).symm
    rw [← List.cons_append, ← List.append_assoc, ofPasswords_concat, secret?_insert, if_neg hpair]
    exact ih fun p hp => hlast p (List.mem_append_left _ hp)

/-- All responses are of one length, so a body with a semicolon in its name is nobody else's either. -/
theorem semicolon_notMem_of_verify {us : Users} {login : Login} {challenge : Bytes}
    (h : us.verify challenge (login.responseBody challenge) = true) :
    ';' ∉ login.username.toList := by
  obtain ⟨user, secret, -, hn, hbody⟩ := ResponseBody.accepts_iff.1 h
  have hlength := congrArg List.length hbody
  simp only [Login.responseBody, List.length_append, List.length_cons, respond, Hmac.length_digest,
    Nat.add_right_cancel_iff] at hlength
  obtain ⟨hname, -⟩ := List.append_inj hbody hlength
  rwa [Utf8.encode_injective hname]

end Users

namespace UserTable

/-- The names and passwords in a stored table. -/
def pairsOf? (stored : Stored) : Option (List (String × String)) :=
  stored.text?.bind fun text => (Toml.parse? text).bind pairs?

theorem load_of_pairsOf? {stored : Stored} {pairs : List (String × String)}
    (h : pairsOf? stored = some pairs) (hne : pairs ≠ []) :
    load stored = .ok (Users.ofPasswords pairs) := by
  obtain ⟨text, htext, hpairs⟩ := Option.bind_eq_some_iff.1 h
  cases pairs with
  | nil => exact absurd rfl hne
  | cons pair rest => simp only [load, htext, hpairs]

/-- **Configured users can log in, unless there is a semicolon in the name.** Take any list of names and
passwords, any name in it and its last password. Whatever the challenge, the response that is built from
them is accepted if and only if the name has no semicolon. A stored table with that list is loaded as
its users. -/
theorem configured_user_accepted_iff {pairs before after : List (String × String)} {login : Login}
    (hpairs : pairs = before ++ (login.username, login.password) :: after)
    (hlast : ∀ pair ∈ after, pair.1 ≠ login.username) :
    (∀ challenge, (Users.ofPasswords pairs).verify challenge (login.responseBody challenge) = true ↔
      ';' ∉ login.username.toList) ∧
    ∀ stored, pairsOf? stored = some pairs → load stored = .ok (Users.ofPasswords pairs) := by
  subst hpairs
  have hsecret := Users.secret?_ofPasswords before login.password hlast
  refine ⟨fun challenge => ?_, fun stored hstored => load_of_pairsOf? hstored (by simp)⟩
  exact ⟨Users.semicolon_notMem_of_verify, fun hn => Users.verify_responseBody hsecret hn challenge⟩

/-- Ada has two passwords in the list, of which the second one counts. -/
theorem configured_user_accepted_iff_ada :
    let login : Login := { username := "ada", password := "engine" }
    let pairs := [("ada", "loom"), ("charles", "mill"), ("ada", "engine"), ("joan", "x;y")]
    let challenge := List.replicate challengeLength 7
    (Users.ofPasswords pairs).verify challenge (login.responseBody challenge) = true := by
  intro login pairs challenge
  have hpairs : pairs = [("ada", "loom"), ("charles", "mill")] ++
      (login.username, login.password) :: [("joan", "x;y")] := rfl
  obtain ⟨haccepted, -⟩ := configured_user_accepted_iff hpairs (by decide)
  exact (haccepted challenge).2 (by decide)

/-- The only user of a table is refused with the right password. -/
theorem semicolon_in_name_refused :
    let login : Login := { username := "ada;lovelace", password := "engine" }
    let us := Users.ofPasswords [(login.username, login.password)]
    let challenge := List.replicate challengeLength 7
    load (.file (Utf8.encode "[users]\n\"ada;lovelace\" = \"engine\"")) = .ok us ∧
      us.secret? login.username = some (deriveSecret login.password) ∧
      us.verify challenge (login.responseBody challenge) = false := by
  intro login us challenge
  have hpairs : pairsOf? (.file (Utf8.encode "[users]\n\"ada;lovelace\" = \"engine\"")) =
      some [(login.username, login.password)] := by
    rw [pairsOf?, Stored.text?, Utf8.decode?_encode]
    rfl
  refine ⟨load_of_pairsOf? hpairs (by simp), Users.secret?_ofPasswords [] _ (by simp), ?_⟩
  refine Bool.eq_false_iff.2 fun h => ?_
  exact absurd (Users.semicolon_notMem_of_verify h) (by decide)

end UserTable

end HomeControl
