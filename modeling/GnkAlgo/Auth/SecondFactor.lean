import GnkAlgo.Auth.AccountSteps
import GnkAlgo.Lib.Runs

/-!
# The second factor over runs of requests

A user sets up a secret, switches the factor on with a code of the authenticator
and is shown eight recovery codes; a login or `mfa_disable` takes what the
authenticator shows, or one of these codes, for the last time.

* `User.Enrolled` — the columns of a user say what the log of the user leaves;
* `AccountRun.Sound`, `sound_accountStep` — every request keeps them so;
* `login_second_factor_iff` — which codes let a user in;
* `second_factor_kept` — over every run: a factor that is on has the secret set up
  last, a code lets in that is the authenticator's for it or is left of those shown
  last, and no recovery code is accepted twice but where it was shown again.
-/

namespace GnkAlgo

open Enrolment Transition

/-! ## What the columns say -/

/-- The columns of the second factor are what the log leaves. -/
structure User.Enrolled (lib : AuthLibraries) (user : User) (log : List FactorEntry) : Prop where
  enabled : user.mfaEnabled = isOn log
  secret : user.mfaSecretEncrypted.map lib.decryptText = secretOf log
  codes : ∀ digest, digest ∈ user.recoveryCodeHashes ↔
    ∃ code ∈ codesOf log, lib.hashToken code = digest
  few : user.recoveryCodeHashes.length ≤ 8

/-- The users can be told apart, every log is that of a user there is and was
possible entry by entry, and the columns of each user say what it leaves. -/
structure AccountRun.Sound (lib : AuthLibraries) (s : AccountRun) : Prop where
  table : s.db.UserTable
  logged : ∀ entry ∈ s.log, entry.1 < s.db.nextUuid
  valid : ∀ userId, Valid (s.logOf userId)
  enrolled : ∀ user ∈ s.db.users, user.Enrolled lib (s.logOf user.id)

/-- The secret is that of the authenticator that shows the code. -/
def Shows (lib : AuthLibraries) (now : Time) (log : List FactorEntry) (code : String) : Prop :=
  ∃ secret, secretOf log = some secret ∧ lib.verifyTotp secret code now

section Columns

variable {lib : AuthLibraries} {now : Time} {user : User} {log : List FactorEntry}
  {code : String}

theorem User.Enrolled.of_columns {new : User} (h : user.Enrolled lib log)
    (hon : new.mfaEnabled = user.mfaEnabled)
    (hsecret : new.mfaSecretEncrypted = user.mfaSecretEncrypted)
    (hcodes : new.recoveryCodeHashes = user.recoveryCodeHashes) : new.Enrolled lib log :=
  ⟨hon.trans h.enabled, hsecret ▸ h.secret, hcodes ▸ h.codes, hcodes ▸ h.few⟩

theorem User.Enrolled.of_account {new : User} (h : user.Enrolled lib log)
    (haccount : user.account = new.account) : new.Enrolled lib log := by
  have hon : user.account.mfaEnabled = new.account.mfaEnabled := by rw [haccount]
  have hsecret : user.account.mfaSecretEncrypted = new.account.mfaSecretEncrypted := by
    rw [haccount]
  have hcodes : user.account.recoveryCodeHashes = new.account.recoveryCodeHashes := by
    rw [haccount]
  exact h.of_columns hon.symm hsecret.symm hcodes.symm

theorem User.Enrolled.passesTotp_iff (h : user.Enrolled lib log) :
    user.passesTotp lib now code ↔ Shows lib now log code := by
  unfold User.passesTotp Shows
  rw [← h.secret, Option.any_eq_true]
  constructor
  · rintro ⟨encrypted, hencrypted, hverify⟩
    exact ⟨lib.decryptText encrypted, by rw [hencrypted]; rfl, hverify⟩
  · rintro ⟨secret, hsecret, hverify⟩
    obtain ⟨encrypted, hencrypted, rfl⟩ := Option.map_eq_some_iff.1 hsecret
    exact ⟨encrypted, hencrypted, hverify⟩

/-- A recovery code is taken where it is left. -/
theorem User.Enrolled.consume_iff (h : user.Enrolled lib log)
    (hhash : Function.Injective lib.hashToken) :
    consumeRecoveryCode lib code user.recoveryCodeHashes ≠ none ↔
      lib.upper code ∈ codesOf log := by
  have hmem : lib.hashToken (lib.upper code) ∈ user.recoveryCodeHashes ↔
      lib.upper code ∈ codesOf log := by
    rw [h.codes]
    constructor
    · rintro ⟨other, hother, hsame⟩
      exact hhash hsame ▸ hother
    · intro hleft
      exact ⟨_, hleft, rfl⟩
  unfold consumeRecoveryCode
  rw [← hmem]
  dsimp only
  split
  · rename_i hnot
    simp [hnot]
  · rename_i hin
    simp [not_not.1 hin]

theorem User.Enrolled.spent (h : user.Enrolled lib log) (hhash : Function.Injective lib.hashToken)
    {remaining : List String}
    (hconsume : consumeRecoveryCode lib code user.recoveryCodeHashes = some remaining) :
    (user.loggedIn remaining).Enrolled lib (.spend (lib.upper code) :: log) := by
  unfold consumeRecoveryCode at hconsume
  dsimp only at hconsume
  split at hconsume
  · cases hconsume
  cases hconsume
  refine ⟨h.enabled, h.secret, fun digest => ?_, (List.length_filter_le _ _).trans h.few⟩
  rw [User.loggedIn, List.mem_filter, h.codes]
  constructor
  · rintro ⟨⟨other, hother, rfl⟩, hne⟩
    exact ⟨other, ⟨hother, fun heq => of_decide_eq_true hne (congrArg _ heq)⟩, rfl⟩
  · rintro ⟨other, ⟨hother, hne⟩, rfl⟩
    exact ⟨⟨other, hother, rfl⟩, decide_eq_true fun heq => hne (hhash heq)⟩

/-- What a login spends was left, and leaves the columns what the log says. -/
theorem User.Enrolled.loggedIn (h : user.Enrolled lib log)
    (hhash : Function.Injective lib.hashToken) (hvalid : Valid log) {totpCode : Option String}
    {remaining : List String} (hfactor : secondFactor lib now user totpCode = .ok remaining) :
    Valid (user.loginSpends lib now totpCode ++ log) ∧
      (user.loggedIn remaining).Enrolled lib (user.loginSpends lib now totpCode ++ log) := by
  unfold secondFactor at hfactor
  split at hfactor
  · rename_i hoff
    cases hfactor
    have hnothing : user.loginSpends lib now totpCode = [] := by
      cases totpCode with
      | none => rfl
      | some code => exact if_neg hoff
    rw [hnothing]
    exact ⟨hvalid, h.of_account rfl⟩
  rename_i hon
  split at hfactor
  · cases hfactor
  · cases hfactor
  rename_i code encrypted hencrypted
  have hpasses : user.passesTotp lib now code =
      lib.verifyTotp (lib.decryptText encrypted) code now := congrArg (Option.any _) hencrypted
  rw [User.loginSpends, if_pos (not_not.1 hon), User.spends, hpasses]
  split at hfactor
  · rename_i htotp
    cases hfactor
    rw [if_pos htotp]
    exact ⟨hvalid, h.of_account rfl⟩
  · rename_i htotp
    rw [if_neg htotp]
    split at hfactor
    · cases hfactor
    · rename_i hconsume
      cases hfactor
      have hleft := (h.consume_iff hhash).1 (by rw [hconsume]; exact Option.some_ne_none _)
      exact ⟨⟨hleft, hvalid⟩, h.spent hhash hconsume⟩

end Columns

/-! ## Every request -/

section Steps

variable {lib : AccountLibraries} {settings : AccountSettings} {s t : AccountRun}
  {e : AccountEvent} {user new : User} {entries : List FactorEntry}

theorem AccountRun.logOf_enters_self (hlog : t.log = user.enters entries ++ s.log) :
    t.logOf user.id = entries ++ s.logOf user.id := by
  unfold AccountRun.logOf User.enters at *
  rw [hlog, List.filter_append, List.map_append, List.filter_eq_self.2, List.map_map]
  · congr 1
    exact List.map_id _
  · intro entry hentry
    obtain ⟨e, -, rfl⟩ := List.mem_map.1 hentry
    exact decide_eq_true rfl

theorem AccountRun.logOf_enters_of_ne (hlog : t.log = user.enters entries ++ s.log) {userId : Uuid}
    (hne : userId ≠ user.id) : t.logOf userId = s.logOf userId := by
  unfold AccountRun.logOf User.enters at *
  rw [hlog, List.filter_append, List.filter_eq_nil_iff.2, List.nil_append]
  intro entry hentry
  obtain ⟨e, -, rfl⟩ := List.mem_map.1 hentry
  simpa using hne.symm

/-- A row is rewritten, with what the log says of it. -/
theorem AccountRun.Sound.write (h : s.Sound lib.toAuthLibraries)
    (hnext : s.db.nextUuid ≤ t.db.nextUuid) (hrow : user ∈ s.db.users)
    (husers : t.db.users = (s.db.setUser new).users) (hid : new.id = user.id)
    (hlog : t.log = user.enters entries ++ s.log)
    (hvalid : Valid (entries ++ s.logOf user.id))
    (hnew : new.Enrolled lib.toAuthLibraries (entries ++ s.logOf user.id)) :
    t.Sound lib.toAuthLibraries where
  table := h.table.setUser hrow husers hid hnext
  logged entry hentry := by
    rw [hlog] at hentry
    rcases List.mem_append.1 hentry with hnew | hold
    · obtain ⟨_, -, rfl⟩ := List.mem_map.1 hnew
      exact (h.table.fresh user hrow).trans_le hnext
    · exact (h.logged entry hold).trans_le hnext
  valid userId := by
    by_cases hself : userId = user.id
    · rw [hself, AccountRun.logOf_enters_self hlog]
      exact hvalid
    · rw [AccountRun.logOf_enters_of_ne hlog hself]
      exact h.valid userId
  enrolled x hx := by
    rw [husers] at hx
    rcases Rows.mem_replaceBy hx with rfl | ⟨hx, hne⟩
    · rw [hid, AccountRun.logOf_enters_self hlog]
      exact hnew
    · rw [AccountRun.logOf_enters_of_ne hlog (hid ▸ hne)]
      exact h.enrolled x hx

/-- Nothing is entered, and the columns that count are those there were. -/
theorem AccountRun.Sound.unlogged (h : s.Sound lib.toAuthLibraries) (htable : t.db.UserTable)
    (hnext : s.db.nextUuid ≤ t.db.nextUuid) (hlog : t.log = s.log)
    (henrolled : ∀ x ∈ t.db.users, x.Enrolled lib.toAuthLibraries (s.logOf x.id)) :
    t.Sound lib.toAuthLibraries := by
  have hsame : ∀ userId, t.logOf userId = s.logOf userId := by
    intro userId
    unfold AccountRun.logOf
    rw [hlog]
  refine ⟨htable, fun entry hentry => (h.logged entry (hlog ▸ hentry)).trans_le hnext, ?_, ?_⟩
  · intro userId
    rw [hsame]
    exact h.valid userId
  · intro x hx
    rw [hsame]
    exact henrolled x hx

/-- A user who comes in has no log. -/
theorem AccountRun.Sound.logOf_new (h : s.Sound lib.toAuthLibraries)
    (hid : user.id = s.db.nextUuid) : s.logOf user.id = [] := by
  unfold AccountRun.logOf
  rw [List.filter_eq_nil_iff.2, List.map_nil]
  intro entry hentry
  simpa [hid] using (h.logged entry hentry).ne

theorem newRecoveryCodes_enrolled {log : List FactorEntry}
    (h : user.Enrolled lib.toAuthLibraries log) (n : ℕ) :
    User.Enrolled lib.toAuthLibraries
      { user with mfaEnabled := true, recoveryCodeHashes := (newRecoveryCodes lib n).2 }
      (.switchOn (newRecoveryCodes lib n).1 :: log) where
  enabled := rfl
  secret := h.secret
  codes digest := by
    unfold newRecoveryCodes
    dsimp only [codesOf]
    rw [List.mem_map]
    exact Iff.rfl
  few := by simp [newRecoveryCodes]

/-- **Every request** keeps the columns what the log says. -/
theorem sound_accountStep (h : s.Sound lib.toAuthLibraries)
    (hhash : Function.Injective lib.hashToken) (e : AccountEvent) :
    (accountStep lib settings s e).Sound lib.toAuthLibraries := by
  have hnext := (grows_accountStep lib settings s e).nextUuid
  have htable : (accountStep lib settings s e).db.UserTable := userTable_accountStep h.table e
  cases accountMove_accountStep h.table.ids e with
  | kept haccounts hlog =>
    refine h.unlogged htable hnext hlog fun x hx => ?_
    obtain ⟨y, hy, heq⟩ := exists_account haccounts hx
    have hid : y.account.id = x.account.id := by rw [heq]
    rw [← show y.id = x.id from hid]
    exact (h.enrolled y hy).of_account heq
  | letIn email password totpCode user remaining he hrow hactive hverified hfactor husers hlog =>
    have hmem := List.mem_of_find?_eq_some hrow
    obtain ⟨hvalid, hnew⟩ := (h.enrolled user hmem).loggedIn hhash (h.valid user.id) hfactor
    exact h.write hnext hmem husers rfl hlog hvalid hnew
  | added user hid hbelow hoff hnew hmade husers hlog =>
    refine h.unlogged htable hnext hlog fun x hx => ?_
    rw [husers] at hx
    rcases List.mem_append.1 hx with hold | hnew
    · exact h.enrolled x hold
    · obtain rfl := List.mem_singleton.1 hnew
      rw [h.logOf_new hid]
      exact ⟨hoff.1, by rw [hoff.2.1]; rfl, by simp [hoff.2.2, codesOf], by simp [hoff.2.2]⟩
  | verified token row user he hcheck hrow husers hlog =>
    have hmem := AuthDatabase.user?_mem hrow
    have hnothing : (accountStep lib settings s e).log = user.enters [] ++ s.log := hlog
    exact h.write hnext hmem husers rfl hnothing (h.valid user.id)
      ((h.enrolled user hmem).of_columns rfl rfl rfl)
  | administered credentials userId changes admin user he hadmin hrow hother husers hlog =>
    have hmem := AuthDatabase.user?_mem hrow
    have hnothing : (accountStep lib settings s e).log = user.enters [] ++ s.log := hlog
    exact h.write hnext hmem husers rfl hnothing (h.valid user.id)
      ((h.enrolled user hmem).of_columns rfl rfl rfl)
  | setUp credentials user sessionId n he hsession hoff husers hlog =>
    have hmem := requireSession_row hsession
    have hold := h.enrolled user hmem
    refine h.write hnext hmem husers rfl hlog ⟨hold.enabled.symm.trans hoff, h.valid user.id⟩ ?_
    exact ⟨hold.enabled, congrArg some (lib.decrypt_encryptText n _), hold.codes, hold.few⟩
  | switchedOn credentials code user sessionId n he hsession hpasses husers hlog =>
    have hmem := requireSession_row hsession
    have hold := h.enrolled user hmem
    obtain ⟨secret, hsecret, -⟩ := hold.passesTotp_iff.1 hpasses
    exact h.write hnext hmem husers rfl hlog ⟨Option.isSome_of_eq_some hsecret, h.valid user.id⟩
      (newRecoveryCodes_enrolled hold n)
  | switchedOff credentials password code user sessionId he hsession hcode husers hlog =>
    have hmem := requireSession_row hsession
    have hold := h.enrolled user hmem
    refine h.write hnext hmem husers rfl hlog ?_
      ⟨rfl, rfl, by simp [codesOf], Nat.zero_le _⟩
    change Valid (user.spends lib.toAuthLibraries e.now code ++ s.logOf user.id)
    unfold User.spends
    split
    · exact h.valid user.id
    · rename_i hnot
      exact ⟨(hold.consume_iff hhash).1 (hcode.resolve_left hnot), h.valid user.id⟩

end Steps

/-! ## Logins -/

section Logins

variable {lib : AuthLibraries} {settings : AuthSettings} {now : Time} {d : AuthDatabase}
  {user : User} {log : List FactorEntry} {email password : String} {totpCode : Option String}

/-- What `login` checks before the second factor. -/
structure User.MayLogIn (lib : AuthLibraries) (now : Time) (user : User) (password : String) :
    Prop where
  unlocked : ¬ user.lockedUntil.any (now < ·)
  password : lib.verifyPassword password user.passwordHash
  active : user.isActive
  verified : user.isVerified

theorem login_ok_iff :
    (∃ tokens, (login lib settings now d email password totpCode).2 = .ok tokens) ↔
    ∃ user, d.users.find? (·.email = email) = some user ∧ user.MayLogIn lib now password ∧
      ∃ remaining, secondFactor lib now user totpCode = .ok remaining := by
  unfold login
  cases hfind : d.users.find? (·.email = email) with
  | none => simp
  | some user =>
    dsimp only
    constructor
    · rintro ⟨tokens, hok⟩
      split at hok
      · cases hok
      rename_i hunlocked
      split at hok
      · cases hok
      rename_i hpassword
      split at hok
      · cases hok
      rename_i hactive
      split at hok
      · cases hok
      rename_i hverified
      split at hok
      · cases hok
      · rename_i remaining hfactor
        exact ⟨user, rfl, ⟨hunlocked, not_not.1 hpassword, not_not.1 hactive, not_not.1 hverified⟩,
          remaining, hfactor⟩
    · rintro ⟨_, ⟨⟩, hmay, remaining, hfactor⟩
      rw [if_neg hmay.unlocked, if_neg (not_not.2 hmay.password), if_neg (not_not.2 hmay.active),
        if_neg (not_not.2 hmay.verified), hfactor]
      exact ⟨_, rfl⟩

/-- The second factor passes where it is off, with what the authenticator shows, and
with a recovery code that is left. -/
theorem User.Enrolled.secondFactor_iff (h : user.Enrolled lib log) (hvalid : Valid log)
    (hhash : Function.Injective lib.hashToken) :
    (∃ remaining, secondFactor lib now user totpCode = .ok remaining) ↔
      isOn log = false ∨
        ∃ code ∈ totpCode, Shows lib now log code ∨ lib.upper code ∈ codesOf log := by
  rw [← h.enabled]
  unfold secondFactor
  cases hon : user.mfaEnabled with
  | false => simp
  | true =>
    obtain ⟨secret, hsecret⟩ := Option.isSome_iff_exists.1
      (hvalid.secret_of_isOn (h.enabled.symm.trans hon))
    rw [← h.secret] at hsecret
    obtain ⟨encrypted, hencrypted, rfl⟩ := Option.map_eq_some_iff.1 hsecret
    rw [if_neg (by simp)]
    cases totpCode with
    | none => simp
    | some code =>
      have hpasses : user.passesTotp lib now code =
          lib.verifyTotp (lib.decryptText encrypted) code now :=
        congrArg (Option.any _) hencrypted
      simp only [hencrypted, Option.mem_some_iff, exists_eq_left', Bool.true_eq_false, false_or]
      rw [← h.passesTotp_iff, ← h.consume_iff hhash, hpasses]
      split
      · rename_i htotp
        simp [htotp]
      · rename_i htotp
        cases consumeRecoveryCode lib code user.recoveryCodeHashes with
        | none => simp [htotp]
        | some remaining => simp

/-- A factor that is on never lacks its secret. -/
theorem User.Enrolled.secondFactor_ne (h : user.Enrolled lib log) (hvalid : Valid log)
    {e : HttpError} (herror : secondFactor lib now user totpCode = .error e) :
    e.statusCode = 401 := by
  unfold secondFactor at herror
  split at herror
  · cases herror
  rename_i hon
  split at herror
  · cases herror
    rfl
  · rename_i hnone
    have hsome := hvalid.secret_of_isOn (h.enabled.symm.trans (not_not.1 hon))
    rw [← h.secret, hnone] at hsome
    cases hsome
  · split at herror
    · cases herror
    split at herror
    · cases herror
      rfl
    · cases herror

theorem login_error_ne (h : ∀ user, d.users.find? (·.email = email) = some user →
    ∃ log, Valid log ∧ user.Enrolled lib log) :
    (login lib settings now d email password totpCode).2 ≠
      .error ⟨500, "Internal Server Error"⟩ := by
  unfold login
  split
  · simp [invalidCredentials]
  rename_i user hfind
  split
  · simp
  split
  · simp [invalidCredentials]
  split
  · simp
  split
  · simp
  split
  · rename_i e herror
    obtain ⟨log, hvalid, henrolled⟩ := h user hfind
    have hcode := henrolled.secondFactor_ne hvalid herror
    rintro heq
    cases heq
    exact absurd hcode (by decide)
  · simp

end Logins

/-- **The second factor.**  From tables without users, over every run of requests:
the factor of a user is on while the log says so, and its secret is the one set up
last; a login is let in exactly where the factor is off or the code is what the
authenticator shows for that secret or is left of the recovery codes shown last, and
never ends in an internal error; and a recovery code that was accepted twice was
shown again in between. -/
theorem second_factor_kept {lib : AccountLibraries} (hhash : Function.Injective lib.hashToken)
    (settings : AccountSettings) {d : AuthDatabase} (hstart : d.users = [])
    {events : List AccountEvent} {s : AccountRun}
    (h : Run (Steps (accountStep lib settings)) ⟨d, []⟩ events s) :
    (∀ user ∈ s.db.users, user.mfaEnabled = isOn (s.logOf user.id) ∧
      user.mfaSecretEncrypted.map lib.decryptText = secretOf (s.logOf user.id) ∧
      (user.mfaEnabled → user.mfaSecretEncrypted ≠ none)) ∧
    (∀ now email password totpCode,
      ((∃ tokens, (login lib.toAuthLibraries settings.toAuthSettings now s.db email password
          totpCode).2 = .ok tokens) ↔
        ∃ user, s.db.users.find? (·.email = email) = some user ∧
          user.MayLogIn lib.toAuthLibraries now password ∧
          (isOn (s.logOf user.id) = false ∨ ∃ code ∈ totpCode,
            Shows lib.toAuthLibraries now (s.logOf user.id) code ∨
            lib.upper code ∈ codesOf (s.logOf user.id))) ∧
      (login lib.toAuthLibraries settings.toAuthSettings now s.db email password totpCode).2 ≠
        .error ⟨500, "Internal Server Error"⟩) ∧
    ∀ userId code later middle earlier,
      s.logOf userId = later ++ .spend code :: (middle ++ .spend code :: earlier) →
      ∃ codes, .switchOn codes ∈ middle ∧ code ∈ codes := by
  have hsound : s.Sound lib.toAuthLibraries := by
    refine h.invariant (P := fun s : AccountRun => s.Sound lib.toAuthLibraries) ?_ ?_
    · exact ⟨⟨by simp [hstart], by simp [hstart]⟩, by simp, fun _ => trivial, by simp [hstart]⟩
    · rintro s e _ hs rfl
      exact sound_accountStep hs hhash e
  refine ⟨?_, ?_, ?_⟩
  · intro user hmem
    have henrolled := hsound.enrolled user hmem
    refine ⟨henrolled.enabled, henrolled.secret, fun hon hnone => ?_⟩
    have hsome := (hsound.valid user.id).secret_of_isOn (henrolled.enabled.symm.trans hon)
    rw [← henrolled.secret, hnone] at hsome
    cases hsome
  · intro now email password totpCode
    constructor
    · rw [login_ok_iff]
      refine exists_congr fun user => and_congr_right fun hfind => and_congr_right fun _ => ?_
      have hmem := List.mem_of_find?_eq_some hfind
      exact (hsound.enrolled user hmem).secondFactor_iff (hsound.valid user.id) hhash
    · refine login_error_ne fun user hfind => ⟨_, hsound.valid user.id, ?_⟩
      exact hsound.enrolled user (List.mem_of_find?_eq_some hfind)
  · intro userId code later middle earlier hlog
    have hvalid := hsound.valid userId
    rw [hlog] at hvalid
    exact hvalid.issued_again

/-! ### A recovery code -/

/-- An authenticator that shows its secret. -/
def accountLibraries : AccountLibraries where
  toAuthLibraries := { sampleLibraries with verifyTotp := fun secret code _ => secret = code }
  encryptText _ text := text
  decrypt_encryptText _ _ := rfl
  totpSecretAt _ := "JBSWY3DPEHPK3PXP"
  tokenHexAt n := String.ofList (List.replicate n '0')

theorem horse_length : 12 ≤ "Correct-horse-1".length ∧ "Correct-horse-1".length ≤ 128 := by decide

/-- A user registers, logs in, sets the factor up, switches it on, and logs in with
the first recovery code. -/
def recoveryEvents : List AccountEvent := [
  ⟨0, .register ⟨"u@example.com", "Correct-horse-1", "Correct-horse-1", horse_length, rfl⟩ true⟩,
  ⟨1, .verifyEmail ""⟩,
  ⟨2, .auth (.login "u@example.com" "Correct-horse-1" none)⟩,
  ⟨3, .mfaSetup { bearer := some (createAccessToken {} 2 0 2 .retail) }⟩,
  ⟨4, .mfaVerify { bearer := some (createAccessToken {} 2 0 2 .retail) } "JBSWY3DPEHPK3PXP"⟩,
  ⟨5, .auth (.login "u@example.com" "Correct-horse-1" (some "000"))⟩]

def recoveredRun : AccountRun :=
  recoveryEvents.foldl (accountStep accountLibraries {}) ⟨{}, []⟩

/-- The code is not good for a second login. -/
theorem second_factor_kept_recovered :
    ¬ ∃ tokens, (login accountLibraries.toAuthLibraries {} 6 recoveredRun.db "u@example.com"
      "Correct-horse-1" (some "000")).2 = .ok tokens := by
  have hhash : Function.Injective accountLibraries.hashToken := sampleDigest_injective
  have hkept := second_factor_kept hhash {} (d := {}) rfl (run_foldl _ _ recoveryEvents)
  have hlogin := (hkept.2.1 6 "u@example.com" "Correct-horse-1" (some "000")).1
  have hfind : ∀ user, recoveredRun.db.users.find? (·.email = "u@example.com") = some user →
      user.id = 0 := by
    decide +kernel
  have hlog : recoveredRun.logOf 0 = [.spend "000",
      .switchOn ((List.range 8).map fun n => String.ofList (List.replicate (3 + n) '0')),
      .setUp "JBSWY3DPEHPK3PXP"] := by
    decide +kernel
  intro hok
  obtain ⟨user, hrow, -, hcode⟩ := hlogin.1 hok
  rw [hfind user hrow] at hcode
  change isOn (recoveredRun.logOf 0) = false ∨ ∃ code ∈ some "000",
    Shows _ 6 (recoveredRun.logOf 0) code ∨ code ∈ codesOf (recoveredRun.logOf 0) at hcode
  rw [hlog] at hcode
  rcases hcode with hoff | ⟨_, ⟨⟩, ⟨secret, ⟨⟩, hshown⟩ | ⟨-, hspent⟩⟩
  · cases hoff
  · exact absurd hshown (by decide)
  · exact hspent rfl

end GnkAlgo
