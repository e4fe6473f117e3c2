import MacroKeyboard.Threads.Alone
import MacroKeyboard.Device.Runs
import MacroKeyboard.Json.Stringify
import MacroKeyboard.Web.Login
import MacroKeyboard.Web.SetupSubmit

namespace MacroKeyboard.Web

open Json Auth Settings Device Threads.Program Threads.RelyGuarantee Threads.Alone

section ChangePassword

def currentPasswordField : List UInt8 := MacroKeyboard.bytes "currentPassword"
def newPasswordField : List UInt8 := MacroKeyboard.bytes "newPassword"

def exactChangePasswordFields (members : List (List UInt8 × CJson)) : Bool :=
  exactFields [currentPasswordField, newPasswordField] members

/-- `change_password_views_from_root` of a body: the current and the new password. -/
def changePasswordOfBody (parse : CJsonParse) (capacity : Nat) (body : List UInt8) :
    Option (List UInt8 × List UInt8) :=
  match parseExactBody parse capacity body with
  | some (.object members) =>
    if exactChangePasswordFields members then do
      let currentPassword ← stringViewFromItem (getObjectItem members currentPasswordField)
      let newPassword ← stringViewFromItem (getObjectItem members newPasswordField)
      some (currentPassword, newPassword)
    else none
  | _ => none

end ChangePassword

/-- The ways to set the password of the administrator, each with the record that a
login uses after its success: setup and the restart behind it, the change at the
settings page, and the command of the console. -/
inductive PasswordSet (parse : CJsonParse) (derive : Derivation) (password : List UInt8) : AuthPasswordRecord → Prop
  | setup {answers : SetupSubmitAnswers} {session : SetupSession} {body : List UInt8} {request : SetupRequest}
    {settings : DeviceSettings} (hbody : setupRequestOfBody parse (jsonBodyMaxBytes + 1) body = some request)
    (hpassword : request.adminPassword = password)
    (hok : (webSetupSubmitHandle parse derive answers session body).1.result = .ok)
    (hstored : (webSetupSubmitHandle parse derive answers session body).2.2 = some settings) :
    PasswordSet parse derive password (configureNormalServer settings).passwordRecord
  | changed {task : Nat} {body currentPassword : List UInt8} {before after : DeviceState} {outcome : ChangePasswordOutcome}
    (hbody : changePasswordOfBody parse (jsonBodyMaxBytes + 1) body = some (currentPassword, password))
    (hruns : Runs (webChangePasswordHandle derive task currentPassword password) before outcome after)
    (hok : outcome.result = .ok) : PasswordSet parse derive password after.server.passwordRecord
  | console {task : Nat} {before after : DeviceState} {outcome : ChangePasswordOutcome}
    (hruns : Runs (webChangePasswordApplyWithoutVerification derive task password) before outcome after)
    (hok : outcome.result = .ok) : PasswordSet parse derive password after.server.passwordRecord

structure MadeOf (derive : Derivation) (password : List UInt8) (record : AuthPasswordRecord) : Prop where
  valid : passwordArgumentsValid password = true
  iterations : record.iterations = pbkdf2Iterations
  hash : record.hash = derive password record.salt record.iterations

section Record

variable {parse : CJsonParse} {derive : Derivation} {password : List UInt8} {record : AuthPasswordRecord}

theorem madeOf_of_passwordCreate {salt : Option (Buffer passwordSaltBytes)} {derives : Bool}
    (h : passwordCreate derive salt derives password = .ok record) : MadeOf derive password record := by
  unfold passwordCreate at h
  split at h
  · cases h
  next hvalid =>
    split at h
    · cases h
    · split at h
      · cases h
      · cases h
        exact ⟨not_not.mp hvalid, rfl, rfl⟩

theorem passwordOf_of_prepareCandidate {current candidate : DeviceSettings}
    (h : prepareCandidate current record = some candidate) : passwordOf candidate = record := by
  unfold prepareCandidate at h
  dsimp only at h
  split at h
  · cases h
  · cases h
    rfl

theorem madeOf_of_webSetupSubmit {answers : SetupSubmitAnswers} {session : SetupSession} {request : SetupRequest}
    {settings : DeviceSettings} (h : (webSetupSubmit derive answers session request).2.2 = some settings) :
    MadeOf derive request.adminPassword (passwordOf settings) := by
  unfold webSetupSubmit at h
  split at h
  · cases h
  split at h
  · cases h
  next material hcreate =>
    split at h
    · cases h
    next candidate hprepare =>
      have hmade : MadeOf derive request.adminPassword (passwordOf candidate) := by
        rw [(accepted_of_setupPrepareCandidate hprepare).password]
        exact madeOf_of_passwordCreate hcreate
      split at h
      · cases h
      · split at h <;> cases h <;> exact hmade

/-- The commit of a change, when it succeeds, puts the record of its candidate in
force. -/
theorem changePasswordCommitCandidate_valid (current candidate : DeviceSettings) :
    Valid alone (changePasswordCommitCandidate current candidate) (fun _ => True)
      (fun outcome device => outcome.result = .ok → device.server.passwordRecord = passwordOf candidate) := by
  refine valid_bind (M := fun _ _ => True) valid_alone_true fun replaced => ?_
  split
  · exact valid_ret fun _ _ _ h => by cases h
  refine valid_bind (M := fun _ device => device.server.passwordRecord = passwordOf candidate)
    (valid_alone_atomic fun _ _ _ => rfl) fun _ => ?_
  refine valid_bind (M := fun _ device => device.server.passwordRecord = passwordOf candidate)
    (valid_alone_atomic fun calls device h => ?_) fun invalidated => ?_
  · unfold invalidateAllSessions
    dsimp only
    split <;> exact h
  split
  · exact valid_ret fun _ _ _ h => by cases h
  · exact valid_ret fun _ _ h _ => h

/-- A password change that succeeds puts a record of the new password in force. -/
theorem changePassword_valid (task : Nat) (load : DeviceProg (Except ChangePasswordOutcome DeviceSettings))
    (newPassword : List UInt8) (hload : Valid alone load (fun _ => True)
      (fun result _ => ∀ outcome, result = .error outcome → outcome.result ≠ .ok)) :
    Valid alone (changePassword derive task load newPassword) (fun _ => True)
      (fun outcome device => outcome.result = .ok → MadeOf derive newPassword device.server.passwordRecord) := by
  refine valid_bind (M := fun _ _ => True) valid_alone_true fun begun => ?_
  split
  · exact valid_ret fun _ _ _ h => by cases h
  refine valid_bind (M := fun result device => result.1.result = .ok → MadeOf derive newPassword device.server.passwordRecord)
    ?_ fun result => valid_bind (M := fun _ device =>
      result.1.result = .ok → MadeOf derive newPassword device.server.passwordRecord)
      (valid_alone_atomic fun _ _ h => h) fun _ => valid_ret fun _ _ h => h
  refine valid_bind hload fun loaded => ?_
  cases loaded with
  | error outcome => exact valid_ret fun _ _ h hok => absurd hok (h outcome rfl)
  | ok current =>
    refine valid_bind (M := fun created _ => ∀ material, created = .ok material → MadeOf derive newPassword material)
      (valid_alone_atomic fun _ _ _ _ h => madeOf_of_passwordCreate h) fun created => ?_
    cases created with
    | error error => exact valid_ret fun _ _ _ h => by cases h
    | ok material =>
      dsimp only
      split
      · exact valid_ret fun _ _ _ h => by cases h
      next candidate hprepare =>
        refine (valid_pure_and (c := MadeOf derive newPassword material) (P := fun _ => True) fun hmade => ?_).pre
          fun _ _ h => ⟨h material rfl, trivial⟩
        refine valid_bind (changePasswordCommitCandidate_valid current candidate) fun outcome => valid_ret ?_
        intro _ _ h hok
        rw [h hok, passwordOf_of_prepareCandidate hprepare]
        exact hmade

theorem changePasswordLoadCurrentAndValidate_valid (newPassword : List UInt8) :
    Valid alone (changePasswordLoadCurrentAndValidate newPassword) (fun _ => True)
      (fun result _ => ∀ outcome, result = .error outcome → outcome.result ≠ .ok) := by
  refine valid_bind (M := fun _ _ => True) valid_alone_true fun read => ?_
  cases read with
  | error error =>
    refine valid_ret fun _ _ _ outcome h => ?_
    cases h
    exact fun hok => by cases hok
  | ok current =>
    dsimp only
    split
    · refine valid_ret fun _ _ _ outcome h => ?_
      cases h
      exact fun hok => by cases hok
    · exact valid_ret fun _ _ _ outcome h => by cases h

theorem changePasswordVerifyCurrent_valid (currentPassword newPassword : List UInt8) :
    Valid alone (changePasswordVerifyCurrent derive currentPassword newPassword) (fun _ => True)
      (fun result _ => ∀ outcome, result = .error outcome → outcome.result ≠ .ok) := by
  refine valid_bind (changePasswordLoadCurrentAndValidate_valid newPassword) fun loaded => ?_
  cases loaded with
  | error outcome => exact valid_ret fun _ _ h => h
  | ok current =>
    refine valid_bind (M := fun _ _ => True) (valid_alone_true.pre fun _ _ _ => trivial) fun verified => ?_
    split
    · refine valid_ret fun _ _ _ outcome h => ?_
      cases h
      exact fun hok => by cases hok
    · refine valid_ret fun _ _ _ outcome h => ?_
      cases h
      exact fun hok => by cases hok
    · exact valid_ret fun _ _ _ outcome h => by cases h

theorem PasswordSet.madeOf (h : PasswordSet parse derive password record) : MadeOf derive password record := by
  cases h with
  | setup hbody hpassword hok hstored =>
    unfold webSetupSubmitHandle at hstored
    rw [hbody] at hstored
    rw [← hpassword]
    exact madeOf_of_webSetupSubmit hstored
  | changed hbody hruns hok =>
    exact hruns.post (changePassword_valid _ _ _ (changePasswordVerifyCurrent_valid _ _)) trivial hok
  | console hruns hok =>
    exact hruns.post (changePassword_valid _ _ _ (changePasswordLoadCurrentAndValidate_valid _)) trivial hok

theorem MadeOf.passwordVerify (h : MadeOf derive password record) : passwordVerify derive true password record = .ok true := by
  unfold Auth.passwordVerify
  have hiterations : ¬ record.iterations < pbkdf2Iterations := by
    rw [h.iterations]
    decide
  rw [if_neg (not_or.mpr ⟨not_not.mpr h.valid, hiterations⟩), if_neg (by decide), ← h.hash]
  simp

end Record

/-- Once a password was set, and no other has its key, a login with a document of it
is parsed to it and verified exactly when the document is within the limit of the
route and does not hold the text of the escape; and no login with another password
is verified. -/
theorem set_password_logs_in {parse : CJsonParse} {round : ℚ → ℚ} {derive : Derivation} {password : List UInt8}
    {record : AuthPasswordRecord} (hset : PasswordSet parse derive password record)
    (hkey : ∀ other, derive other record.salt record.iterations = record.hash → other = password) :
    (∀ characters body, utf8 characters = password → DocumentText (loginRequest characters) body →
      parse body = decoded round (loginRequest characters) →
        ((loginPassword parse body = .ok password ∧ loginVerified parse derive true record body = true) ↔
          body.length ≤ jsonBodyMaxBytes ∧ containsEmbeddedNulEscape body = false)) ∧
    ∀ body derives, loginVerified parse derive derives record body = true → loginPassword parse body = .ok password := by
  have hmade := hset.madeOf
  constructor
  · rintro characters body rfl hbody hparse
    rw [← loginPassword_iff hbody hparse hmade.valid]
    refine ⟨fun h => h.1, fun h => ⟨h, ?_⟩⟩
    unfold loginVerified
    rw [h]
    exact decide_eq_true hmade.passwordVerify
  · intro body derives h
    obtain ⟨other, hpassword, hhash⟩ := derive_of_loginVerified h
    rw [hpassword, hkey other hhash]

section Commanded

def keyOf (password : List UInt8) : Derivation := fun other _ _ =>
  ⟨List.replicate passwordVerifierBytes (if other = password then 1 else 0), List.length_replicate⟩

theorem eq_of_keyOf {password other : List UInt8} {record : AuthPasswordRecord}
    (hmade : MadeOf (keyOf password) password record)
    (h : keyOf password other record.salt record.iterations = record.hash) : other = password := by
  by_contra hne
  rw [hmade.hash, keyOf, keyOf, if_neg hne, if_pos rfl] at h
  have hbytes : List.replicate passwordVerifierBytes (0 : UInt8) = List.replicate passwordVerifierBytes 1 :=
    congrArg Buffer.bytes h
  exact absurd hbytes (by decide)

/-- The password set by the command of the console on a running device. -/
def commandedRun (password : List UInt8) : Option (ChangePasswordOutcome × DeviceState) :=
  runWith (List.replicate 12 Runs.quietSurroundings) (webChangePasswordApplyWithoutVerification (keyOf password) 2 password)
    (Runs.bootedDevice Runs.runningStore)

theorem passwordSet_commanded (parse : CJsonParse) (password : List UInt8)
    (h : (commandedRun password).map (·.1.result) = some .ok) :
    ∃ record, PasswordSet parse (keyOf password) password record ∧
      ∀ other, keyOf password other record.salt record.iterations = record.hash → other = password := by
  rw [Option.map_eq_some_iff] at h
  obtain ⟨⟨outcome, after⟩, hrun, hok⟩ := h
  have hset : PasswordSet parse (keyOf password) password after.server.passwordRecord :=
    .console (runs_of_runWith hrun) hok
  exact ⟨_, hset, fun other => eq_of_keyOf hset.madeOf⟩

/-- The login with a password as `JSON.stringify` writes it. -/
def loginBody (password : List Char) : List UInt8 := stringify (fun _ => []) (loginRequest password)

def parseLogin (password : List Char) : CJsonParse := fun body =>
  if body = loginBody password then decoded id (loginRequest password) else none

theorem documentText_loginBody (password : List Char) : DocumentText (loginRequest password) (loginBody password) :=
  documentText_stringify ⟨trivial, trivial⟩

def longPassword : List Char := "a long password".toList

theorem set_password_logs_in_commanded :
    ∃ record, PasswordSet (parseLogin longPassword) (keyOf (utf8 longPassword)) (utf8 longPassword) record ∧
      loginVerified (parseLogin longPassword) (keyOf (utf8 longPassword)) true record (loginBody longPassword) = true := by
  obtain ⟨record, hset, hkey⟩ := passwordSet_commanded (parseLogin longPassword) (utf8 longPassword)
    (by decide +kernel)
  refine ⟨record, hset, ?_⟩
  have hlogin := (set_password_logs_in hset hkey).1 longPassword (loginBody longPassword) rfl
    (documentText_loginBody longPassword) (if_pos rfl)
  exact (hlogin.mpr ⟨by decide +kernel, by decide +kernel⟩).2

def escapeLikePassword : List Char := "password-1\\u0000".toList

/-- A password that was set is refused at the login. -/
theorem set_password_refused :
    ∃ record, PasswordSet (parseLogin escapeLikePassword) (keyOf (utf8 escapeLikePassword)) (utf8 escapeLikePassword) record ∧
      (∀ other, keyOf (utf8 escapeLikePassword) other record.salt record.iterations = record.hash →
        other = utf8 escapeLikePassword) ∧
      DocumentText (loginRequest escapeLikePassword) (loginBody escapeLikePassword) ∧
      parseLogin escapeLikePassword (loginBody escapeLikePassword) = decoded id (loginRequest escapeLikePassword) ∧
      loginPassword (parseLogin escapeLikePassword) (loginBody escapeLikePassword) = .error .invalid := by
  obtain ⟨record, hset, hkey⟩ := passwordSet_commanded (parseLogin escapeLikePassword) (utf8 escapeLikePassword)
    (by decide +kernel)
  exact ⟨record, hset, hkey, documentText_loginBody _, if_pos rfl, by decide +kernel⟩

end Commanded

end MacroKeyboard.Web
