import HomeControl.Login.Challenge
import HomeControl.Proofs.Login.Users

/-!
# Bodies that are accepted

Whatever a store of secrets knows, and whatever the keyed transform does, the bodies that answer a
challenge are those of its users and no others (`accepts_iff`). So no two of them give the same name,
and a body that is accepted is no longer so once its response is changed, cut or lengthened
(`only_right_body_accepted`).
-/

namespace HomeControl

namespace ResponseBody

/-- Whether a body answers a challenge, for any way to look up secrets and any keyed transform. -/
def accepts (transform : Bytes → Secret → Bytes) (secret? : String → Option Secret)
    (challenge body : Bytes) : Bool :=
  match body.dropWhile (· != separator) with
  | [] => false
  | _ :: response =>
    match Utf8.decode? (name body) with
    | none => false
    | some user =>
      match secret? user with
      | none => false
      | some secret => transform challenge secret == response

theorem verify_eq_accepts (us : Users) (challenge body : Bytes) :
    us.verify challenge body = accepts respond us.secret? challenge body := rfl

/-! ## The name in a body -/

section

variable {body : Bytes}

theorem name_append (hs : separator ∈ body) (extra : Bytes) : name (body ++ extra) = name body := by
  obtain ⟨before, after, rfl, hb⟩ := List.eq_append_cons_of_mem hs
  rw [List.append_assoc, List.cons_append, name_append_separator hb, name_append_separator hb]

/-- A byte of the response does not matter to the name. -/
theorem name_set {i : Nat} (hs : separator ∈ body) (hi : (name body).length < i) (b : UInt8) :
    name (body.set i b) = name body := by
  obtain ⟨before, after, rfl, hb⟩ := List.eq_append_cons_of_mem hs
  rw [name_append_separator hb] at hi ⊢
  obtain ⟨j, rfl⟩ := Nat.exists_eq_add_of_lt hi
  rw [List.set_append_right _ _ (Nat.le_of_lt hi), Nat.add_assoc, Nat.add_sub_cancel_left,
    List.set_cons_succ, name_append_separator hb]

end

/-! ## Acceptance -/

variable {transform : Bytes → Secret → Bytes} {secret? : String → Option Secret}
  {challenge body other : Bytes}

theorem accepts_append_separator {before response : Bytes} (hb : separator ∉ before) :
    accepts transform secret? challenge (before ++ separator :: response) = true ↔
      ∃ user secret, Utf8.decode? before = some user ∧ secret? user = some secret ∧
        transform challenge secret = response := by
  rw [accepts, dropWhile_append_separator hb]
  simp only [name_append_separator hb]
  cases Utf8.decode? before with
  | none => simp
  | some user =>
    cases hsecret : secret? user with
    | none => simp [hsecret]
    | some secret => simp [hsecret]

theorem accepts_iff : accepts transform secret? challenge body = true ↔
    ∃ user secret, secret? user = some secret ∧ ';' ∉ user.toList ∧
      body = Utf8.encode user ++ separator :: transform challenge secret := by
  constructor
  · intro h
    by_cases hs : separator ∈ body
    · obtain ⟨before, response, rfl, hb⟩ := List.eq_append_cons_of_mem hs
      obtain ⟨user, secret, huser, hsecret, rfl⟩ := (accepts_append_separator hb).1 h
      obtain rfl := Utf8.decode?_eq_some_iff.1 huser
      rw [Users.separator_mem_encode] at hb
      exact ⟨user, secret, hsecret, hb, rfl⟩
    · rw [accepts, dropWhile_eq_nil hs] at h
      cases h
  · rintro ⟨user, secret, hsecret, hn, rfl⟩
    rw [← Users.separator_mem_encode] at hn
    exact (accepts_append_separator hn).2 ⟨user, secret, Utf8.decode?_encode user, hsecret, rfl⟩

theorem separator_mem_of_accepts (h : accepts transform secret? challenge body = true) :
    separator ∈ body := by
  obtain ⟨user, secret, -, -, rfl⟩ := accepts_iff.1 h
  simp

theorem name_of_accepts (h : accepts transform secret? challenge body = true) :
    ∃ user secret, secret? user = some secret ∧ name body = Utf8.encode user := by
  obtain ⟨user, secret, hsecret, hn, rfl⟩ := accepts_iff.1 h
  rw [← Users.separator_mem_encode] at hn
  exact ⟨user, secret, hsecret, name_append_separator hn _⟩

/-- Of the bodies that give a name at most one is accepted. -/
theorem eq_of_name_eq (h : accepts transform secret? challenge body = true)
    (ho : accepts transform secret? challenge other = true) (hname : name body = name other) :
    body = other := by
  obtain ⟨user, secret, hsecret, hn, rfl⟩ := accepts_iff.1 h
  obtain ⟨user', secret', hsecret', hn', rfl⟩ := accepts_iff.1 ho
  rw [← Users.separator_mem_encode] at hn hn'
  rw [name_append_separator hn, name_append_separator hn'] at hname
  obtain rfl := Utf8.encode_injective hname
  -- One name has one secret, and the transform makes one response of it.
  obtain rfl := Option.some.inj (hsecret.symm.trans hsecret')
  rfl

/-- A body that is accepted is not the beginning of another one that is. -/
theorem eq_nil_of_accepts_append {extra : Bytes} (h : accepts transform secret? challenge body = true)
    (hextra : accepts transform secret? challenge (body ++ extra) = true) : extra = [] := by
  have heq := eq_of_name_eq hextra h (name_append (separator_mem_of_accepts h) extra)
  simpa using heq

theorem accepts_append {extra : Bytes} (h : accepts transform secret? challenge body = true)
    (hne : extra ≠ []) : accepts transform secret? challenge (body ++ extra) = false :=
  Bool.eq_false_iff.2 fun hextra => hne (eq_nil_of_accepts_append h hextra)

theorem accepts_take {n : Nat} (h : accepts transform secret? challenge body = true)
    (hn : n < body.length) : accepts transform secret? challenge (body.take n) = false := by
  refine Bool.eq_false_iff.2 fun htake => ?_
  have hdrop : body.drop n = [] := by
    refine eq_nil_of_accepts_append htake ?_
    rwa [List.take_append_drop]
  exact Nat.not_le.2 hn (List.drop_eq_nil_iff.1 hdrop)

theorem accepts_set {i : Nat} {b : UInt8} (h : accepts transform secret? challenge body = true)
    (hname : (name body).length < i) (hi : i < body.length) (hb : body[i]? ≠ some b) :
    accepts transform secret? challenge (body.set i b) = false := by
  refine Bool.eq_false_iff.2 fun hset => hb ?_
  have heq := eq_of_name_eq hset h (name_set (separator_mem_of_accepts h) hname b)
  rw [← heq, List.getElem?_set_self hi]

/-- **Nothing but the right body is accepted.** Take any store of secrets, any keyed transform and any
challenge. A body is accepted if and only if it is the name of a user without a semicolon, a semicolon,
and what the transform makes of the challenge under that user's secret. If it is, no other body that
gives the same name is accepted; nor is what becomes of it when a byte after its first semicolon is
replaced by another, when bytes are cut off its end, or when bytes follow it. No body is accepted that
has no semicolon, that has something else than text before it, or that names nobody known. The server's
own check is the case of its users and the keyed digest. -/
theorem only_right_body_accepted (transform : Bytes → Secret → Bytes)
    (secret? : String → Option Secret) (challenge body : Bytes) :
    (accepts transform secret? challenge body = true ↔
      ∃ user secret, secret? user = some secret ∧ ';' ∉ user.toList ∧
        body = Utf8.encode user ++ separator :: transform challenge secret) ∧
    (accepts transform secret? challenge body = true →
      (∀ other, accepts transform secret? challenge other = true → name other = name body →
        other = body) ∧
      (∀ i b, (name body).length < i → i < body.length → body[i]? ≠ some b →
        accepts transform secret? challenge (body.set i b) = false) ∧
      (∀ n < body.length, accepts transform secret? challenge (body.take n) = false) ∧
      ∀ extra, extra ≠ [] → accepts transform secret? challenge (body ++ extra) = false) ∧
    (separator ∉ body → accepts transform secret? challenge body = false) ∧
    (Utf8.decode? (name body) = none → accepts transform secret? challenge body = false) ∧
    (∀ user, name body = Utf8.encode user → secret? user = none →
      accepts transform secret? challenge body = false) ∧
    ∀ us : Users, us.verify challenge body = accepts respond us.secret? challenge body := by
  refine ⟨accepts_iff, ?_, ?_, ?_, ?_, fun us => verify_eq_accepts us challenge body⟩
  · intro h
    refine ⟨?_, ?_, ?_, ?_⟩
    · exact fun other ho hname => eq_of_name_eq ho h hname
    · exact fun i b => accepts_set h
    · exact fun n => accepts_take h
    · exact fun extra => accepts_append h
  · exact fun hs => Bool.eq_false_iff.2 fun h => hs (separator_mem_of_accepts h)
  · refine fun hnone => Bool.eq_false_iff.2 fun h => ?_
    obtain ⟨user, -, -, hname⟩ := name_of_accepts h
    rw [hname, Utf8.decode?_encode] at hnone
    cases hnone
  · refine fun user hname hunknown => Bool.eq_false_iff.2 fun h => ?_
    obtain ⟨user', secret, hsecret, hname'⟩ := name_of_accepts h
    obtain rfl := Utf8.encode_injective (hname'.symm.trans hname)
    rw [hunknown] at hsecret
    cases hsecret

/-- Ada's own response is accepted, but not with a semicolon after it, nor cut off after her name. -/
theorem only_right_body_accepted_ada :
    let login : Login := { username := "ada", password := "engine" }
    let us := Users.ofPasswords [(login.username, login.password)]
    let challenge := List.replicate challengeLength 7
    let body := login.responseBody challenge
    us.verify challenge body = true ∧ us.verify challenge (body ++ [separator]) = false ∧
      us.verify challenge (body.take 4) = false := by
  intro login us challenge body
  obtain ⟨haccepts, hothers, -, -, -, -⟩ :=
    only_right_body_accepted respond us.secret? challenge body
  have hsecret : us.secret? login.username = some (deriveSecret login.password) := rfl
  have h : accepts respond us.secret? challenge body = true :=
    haccepts.2 ⟨login.username, deriveSecret login.password, hsecret, by decide, rfl⟩
  obtain ⟨-, -, htake, happend⟩ := hothers h
  have hname : (Utf8.encode "ada").length = 3 := by decide
  have hlength : 4 < body.length := by
    simp [body, login, Login.responseBody, respond, Hmac.length_digest, hname]
  simp only [verify_eq_accepts]
  exact ⟨h, happend [separator] (by simp), htake 4 hlength⟩

end ResponseBody

end HomeControl
