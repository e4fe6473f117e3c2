import MacroKeyboard.Auth.Core
import MacroKeyboard.Web.JsonBody

namespace MacroKeyboard.Web

open Json Auth

def adminPasswordField : List UInt8 := MacroKeyboard.bytes "adminPassword"

def exactLoginFields (members : List (List UInt8 × CJson)) : Bool := exactFields [adminPasswordField] members

def webAuthLoginParse (parse : CJsonParse) (bodyCapacity passwordCapacity : Nat) (body : List UInt8) :
    Option (List UInt8) :=
  match parseExactBody parse bodyCapacity body with
  | some (.object members) =>
    if ¬ exactLoginFields members then none
    else
      match stringViewFromItem (getObjectItem members adminPasswordField) with
      | none => none
      | some password => if password.length < passwordCapacity then some password else none
  | _ => none

inductive LoginBodyError
  | required | exceedsRouteLimit | invalid
deriving DecidableEq, Repr

/-- `login_handler` from the length of the body to the password. -/
def loginPassword (parse : CJsonParse) (body : List UInt8) : Except LoginBodyError (List UInt8) :=
  if body.length = 0 then .error .required
  else if body.length > jsonBodyMaxBytes then .error .exceedsRouteLimit
  else
    match webAuthLoginParse parse (jsonBodyMaxBytes + 1) (passwordMaxBytes + 1) body with
    | none => .error .invalid
    | some password => .ok password

/-- A login is verified as correct against the record. -/
def loginVerified (parse : CJsonParse) (derive : Derivation) (derives : Bool) (record : AuthPasswordRecord)
    (body : List UInt8) : Bool :=
  match loginPassword parse body with
  | .error _ => false
  | .ok password => passwordVerify derive derives password record = .ok true

def loginRequest (password : List Char) : Value Units :=
  .object [(utf16 "adminPassword".toList, .string (utf16 password))]

theorem ne_nil_of_object {members : List (Units × Value Units)} {body : List UInt8}
    (h : DocumentText (.object members) body) : body ≠ [] := by
  cases h with
  | around _ htext _ => cases htext <;> simp

theorem adminPasswordField_eq : utf8 "adminPassword".toList = adminPasswordField := by decide

theorem cString_adminPasswordField : cString adminPasswordField = adminPasswordField := by decide

theorem decoded_loginRequest (round : ℚ → ℚ) (password : List Char) :
    decoded round (loginRequest password) = some (.object [(adminPasswordField, .string (utf8 password))]) := by
  rw [loginRequest, decoded, decodedMembers, decodedString_utf16, adminPasswordField_eq, decoded, decodedString_utf16,
    decodedMembers]
  rfl

/-- A login with a password of a good length is parsed to this password if its body
is within the limit of the route and does not hold the text of the escape. -/
theorem loginPassword_iff {parse : CJsonParse} {round : ℚ → ℚ} {password : List Char} {body : List UInt8}
    (hbody : DocumentText (loginRequest password) body) (hparse : parse body = decoded round (loginRequest password))
    (hvalid : passwordArgumentsValid (utf8 password) = true) :
    loginPassword parse body = .ok (utf8 password) ↔
      body.length ≤ jsonBodyMaxBytes ∧ containsEmbeddedNulEscape body = false := by
  have hne := ne_nil_of_object hbody
  have hlength : ¬ body.length = 0 := fun h => hne (List.eq_nil_of_length_eq_zero h)
  simp only [passwordArgumentsValid, Bool.and_eq_true, decide_eq_true_eq, Bool.not_eq_true'] at hvalid
  have hfree : NulFree (utf8 password) := fun hmem => by
    have hcontains := hvalid.2
    rw [List.contains_eq_mem, decide_eq_false_iff_not] at hcontains
    exact hcontains hmem
  unfold loginPassword
  rw [if_neg hlength]
  by_cases hlimit : body.length > jsonBodyMaxBytes
  · rw [if_pos hlimit]
    exact ⟨(fun h => by cases h), fun h => absurd h.1 (by omega)⟩
  rw [if_neg hlimit]
  have hfits : body.length < jsonBodyMaxBytes + 1 := by omega
  rw [webAuthLoginParse, parseExactBody_of_document hbody hne hfits, hparse, decoded_loginRequest]
  by_cases hescape : containsEmbeddedNulEscape body = true
  · rw [if_pos hescape]
    exact ⟨(fun h => by cases h), fun h => absurd hescape (by rw [h.2]; decide)⟩
  rw [if_neg hescape]
  have hexact : exactLoginFields [(adminPasswordField, Value.string (utf8 password))] = true := by
    simp [exactLoginFields, exactFields, fieldsOnce, cString_adminPasswordField]
  have hitem : getObjectItem [(adminPasswordField, Value.string (utf8 password))] adminPasswordField =
      some (.string (utf8 password)) := by
    simp [getObjectItem, cString_adminPasswordField]
  dsimp only
  rw [if_neg (not_not.mpr hexact), hitem, stringViewFromItem, cString_of_nulFree hfree]
  dsimp only
  rw [if_pos (by omega)]
  exact ⟨fun _ => ⟨by omega, Bool.not_eq_true _ ▸ hescape⟩, fun _ => rfl⟩

theorem derive_of_loginVerified {parse : CJsonParse} {derive : Derivation} {derives : Bool}
    {record : AuthPasswordRecord} {body : List UInt8} (h : loginVerified parse derive derives record body = true) :
    ∃ password, loginPassword parse body = .ok password ∧ derive password record.salt record.iterations = record.hash := by
  unfold loginVerified at h
  split at h
  · cases h
  next password hpassword =>
    refine ⟨password, hpassword, ?_⟩
    rw [decide_eq_true_eq, passwordVerify] at h
    split at h
    · cases h
    · split at h
      · cases h
      · simpa using h

end MacroKeyboard.Web
