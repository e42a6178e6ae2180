import GnkAlgo.Auth.SessionRuns
import GnkAlgo.Lib.Lockout

/-!
# The lockout of an account

`login` counts wrong passwords and locks the account for 15 minutes at the fifth;
a wrong code of the second factor, given with the right password, is refused
without being counted.

* `handle_cases` — what an attempt does to the table of users;
* `login_lockout` — over timed runs of attempts at any accounts, without a success
  at one account and with no wrong code there, at most five attempts in 15 minutes
  have a wrong password checked, and the account is locked after them;
* `wrong_codes_not_counted` — wrong codes are tried one after the other.
-/

namespace GnkAlgo

open Transition Lockout

/-! ## Attempts -/

/-- A request to log in; `throttled` if `limit_login` turns it down. -/
structure LoginAttempt where
  now : Time
  email : String
  password : String
  totpCode : Option String := none
  throttled : Bool := false
  deriving DecidableEq, Repr

/-- The account an address belongs to. -/
def AuthDatabase.account? (d : AuthDatabase) (email : String) : Option User :=
  d.users.find? (·.email = email)

/-- `login` with its throttle. -/
def LoginAttempt.handle (lib : AuthLibraries) (settings : AuthSettings) (d : AuthDatabase)
    (a : LoginAttempt) : AuthDatabase × Except HttpError TokenPair :=
  if a.throttled then (d, .error ⟨429, "Too many requests"⟩)
  else login lib settings a.now d a.email a.password a.totpCode

/-- The password is checked, and wrong. -/
def LoginAttempt.wrongPassword (lib : AuthLibraries) (d : AuthDatabase) (a : LoginAttempt) : Bool :=
  (d.account? a.email).any fun user =>
    a.throttled = false ∧ user.lockedUntil.any (a.now < ·) = false ∧
      lib.verifyPassword a.password user.passwordHash = false

/-- The password is right, and the code is checked and wrong. -/
def LoginAttempt.wrongCode (lib : AuthLibraries) (d : AuthDatabase) (a : LoginAttempt) : Bool :=
  (d.account? a.email).any fun user =>
    a.throttled = false ∧ user.lockedUntil.any (a.now < ·) = false ∧
      lib.verifyPassword a.password user.passwordHash ∧ user.isActive ∧ user.isVerified ∧
      user.mfaEnabled ∧ a.totpCode.any fun code => user.mfaSecretEncrypted.any fun encrypted =>
        lib.verifyTotp (lib.decryptText encrypted) code a.now = false ∧
          consumeRecoveryCode lib code user.recoveryCodeHashes = none

/-- The tables, the time of the last attempt, and the accounts and times of the
attempts with a wrong credential checked. -/
structure LoginRun where
  db : AuthDatabase
  now : Time := 0
  wrong : List (String × Time) := []

def loginStep (lib : AuthLibraries) (settings : AuthSettings) (s : LoginRun) (a : LoginAttempt) :
    LoginRun where
  db := (a.handle lib settings s.db).1
  now := a.now
  wrong :=
    if a.wrongPassword lib s.db ∨ a.wrongCode lib s.db then s.wrong ++ [(a.email, a.now)]
    else s.wrong

/-- When an account had a wrong credential checked. -/
def LoginRun.wrongAt (s : LoginRun) (email : String) : List Time :=
  (s.wrong.filter (·.1 = email)).map (·.2)

/-- Attempts in turn, and no success for the account. -/
structure Guess (lib : AuthLibraries) (settings : AuthSettings) (email : String) (s : LoginRun)
    (a : LoginAttempt) : Prop where
  inTurn : s.now ≤ a.now
  fails : a.email = email → ∀ tokens, (a.handle lib settings s.db).2 ≠ .ok tokens

/-! ## One attempt -/

section Attempt

variable {lib : AuthLibraries} {settings : AuthSettings} {d : AuthDatabase} {a : LoginAttempt}

/-- **An attempt** counts a wrong password; or is refused and leaves the tables;
or succeeds, and starts the count of the account over. -/
theorem handle_cases (lib : AuthLibraries) (settings : AuthSettings) (d : AuthDatabase)
    (a : LoginAttempt) :
    (∃ user, d.account? a.email = some user ∧ user.lockedUntil.any (a.now < ·) = false ∧
      a.wrongPassword lib d ∧ (a.handle lib settings d).1 = d.setUser (user.loginFailed a.now)) ∨
    (a.wrongPassword lib d = false ∧ (a.handle lib settings d).1 = d) ∨
    ∃ user remaining tokens, d.account? a.email = some user ∧ a.wrongPassword lib d = false ∧
      (a.handle lib settings d).2 = .ok tokens ∧ (a.handle lib settings d).1.users =
        (d.setUser { user with
          recoveryCodeHashes := remaining, failedLoginCount := 0, lockedUntil := none }).users := by
  unfold LoginAttempt.handle LoginAttempt.wrongPassword
  split
  · rename_i hthrottled
    exact Or.inr (Or.inl ⟨by simp [hthrottled], rfl⟩)
  rename_i hthrottled
  rw [Bool.not_eq_true] at hthrottled
  unfold login
  cases haccount : d.account? a.email with
  | none =>
    unfold AuthDatabase.account? at haccount
    rw [haccount]
    exact Or.inr (Or.inl ⟨rfl, rfl⟩)
  | some user =>
    unfold AuthDatabase.account? at haccount
    rw [haccount]
    dsimp only [Option.any_some]
    split
    · rename_i hlocked
      exact Or.inr (Or.inl ⟨by simp [hlocked], rfl⟩)
    rename_i hopen
    rw [Bool.not_eq_true] at hopen
    split
    · rename_i hpassword
      rw [Bool.not_eq_true] at hpassword
      exact Or.inl ⟨user, rfl, hopen, by simp [hthrottled, hopen, hpassword], rfl⟩
    rename_i hpassword
    rw [not_not] at hpassword
    have hright : decide (a.throttled = false ∧ user.lockedUntil.any (a.now < ·) = false ∧
        lib.verifyPassword a.password user.passwordHash = false) = false := by
      simp [hpassword]
    split
    · exact Or.inr (Or.inl ⟨hright, rfl⟩)
    split
    · exact Or.inr (Or.inl ⟨hright, rfl⟩)
    split
    · exact Or.inr (Or.inl ⟨hright, rfl⟩)
    · exact Or.inr (Or.inr ⟨user, _, _, rfl, hright, rfl, rfl⟩)

/-- **A locked account**: the attempt is refused with nothing checked. -/
theorem handle_locked {user : User} (huser : d.account? a.email = some user)
    (hlocked : user.lockedUntil.any (a.now < ·)) :
    a.handle lib settings d = (d, .error ⟨429, "Too many requests"⟩) ∨
      a.handle lib settings d = (d, .error ⟨423, "Account is temporarily locked"⟩) := by
  unfold LoginAttempt.handle
  split
  · exact Or.inl rfl
  · unfold AuthDatabase.account? at huser
    unfold login
    rw [huser]
    dsimp only
    rw [if_pos hlocked]
    exact Or.inr rfl

end Attempt

/-! ## One account -/

section Account

variable {d : AuthDatabase} {email other : String} {user user' : User}

theorem account?_eq_head? (d : AuthDatabase) (email : String) :
    d.account? email = (d.users.filter (·.email = email)).head? := by
  unfold AuthDatabase.account?
  rw [List.head?_filter]

/-- A row of an account rewritten in place. -/
theorem account?_setUser (hids : (d.users.map User.id).Nodup) (huser : d.account? other = some user)
    (hid : user'.id = user.id) (hemail : user'.email = user.email) :
    (d.setUser user').account? email = if other = email then some user' else d.account? email := by
  have hmem : user ∈ d.users := List.mem_of_find?_eq_some huser
  have hother : user.email = other := by simpa using List.find?_some huser
  have hsame : ∀ row ∈ d.users, row.id = user'.id →
      decide (row.email = email) = decide (user'.email = email) := by
    intro row hrow hrowid
    rw [List.inj_on_of_nodup_map hids hrow hmem (hrowid.trans hid), hemail]
  have hfilter := Rows.filter_replaceBy hsame
  rw [account?_eq_head?, account?_eq_head?, AuthDatabase.setUser]
  dsimp only
  rw [hfilter, hemail, hother]
  split
  · rename_i heq
    have hhead : (d.users.filter (·.email = email)).head? = some user := by
      rw [← account?_eq_head?, ← of_decide_eq_true heq]
      exact huser
    rw [Rows.replaceBy, List.head?_map, hhead, Option.map_some, if_pos hid.symm,
      if_pos (of_decide_eq_true heq)]
  · rename_i hne
    rw [if_neg fun heq => hne (decide_eq_true heq)]

/-- The count and the lock of an account. -/
def counterOf (d : AuthDatabase) (email : String) : Counter Time :=
  match d.account? email with
  | none => ⟨0, none⟩
  | some user => ⟨user.failedLoginCount, user.lockedUntil⟩

theorem counterOf_eq (huser : d.account? email = some user) :
    counterOf d email = ⟨user.failedLoginCount, user.lockedUntil⟩ := by
  unfold counterOf
  rw [huser]

/-- A wrong password is a strike. -/
theorem strike_loginFailed (user : User) (now : Time) :
    (⟨(user.loginFailed now).failedLoginCount, (user.loginFailed now).lockedUntil⟩ : Counter Time) =
      (⟨user.failedLoginCount, user.lockedUntil⟩ : Counter Time).strike 5 (minutes 15) now := by
  unfold User.loginFailed Counter.strike
  split <;> rfl

theorem locked_iff {user : User} {now : Time} :
    (⟨user.failedLoginCount, user.lockedUntil⟩ : Counter Time).Locked now ↔
      user.lockedUntil.any (now < ·) := by
  unfold Counter.Locked
  simp [Option.any_eq_true]

end Account

/-! ## Runs -/

/-- The bound for one window, along a run. -/
structure LoginRun.Sound (email : String) (start : Time) (s : LoginRun) : Prop where
  ids : (s.db.users.map User.id).Nodup
  bounded : Bounded 5 (minutes 15) start (counterOf s.db email) (s.wrongAt email) s.now

section Runs

variable {lib : AuthLibraries} {settings : AuthSettings} {email : String} {start : Time}
  {s : LoginRun} {a : LoginAttempt}

theorem wrongAt_loginStep_of_ne (hne : a.email ≠ email) :
    (loginStep lib settings s a).wrongAt email = s.wrongAt email := by
  unfold LoginRun.wrongAt loginStep
  dsimp only
  split
  · rw [Rows.filter_concat_of_neg (by simpa using hne)]
  · rfl

theorem wrongAt_loginStep_self (hcode : a.wrongCode lib s.db = false) :
    (loginStep lib settings s a).wrongAt a.email =
      if a.wrongPassword lib s.db then s.wrongAt a.email ++ [a.now] else s.wrongAt a.email := by
  unfold LoginRun.wrongAt loginStep
  rw [hcode]
  dsimp only
  cases a.wrongPassword lib s.db with
  | true => simp
  | false => simp

theorem ids_setUser {d : AuthDatabase} {user : User} (hids : (d.users.map User.id).Nodup) :
    ((d.setUser user).users.map User.id).Nodup := by
  unfold AuthDatabase.setUser
  rw [Rows.map_key_replaceBy]
  exact hids

theorem counterOf_congr {d d' : AuthDatabase} (h : d'.account? email = d.account? email) :
    counterOf d' email = counterOf d email := by
  unfold counterOf
  rw [h]

/-- **One attempt** keeps the bound, if it does not have a wrong code checked. -/
theorem sound_loginStep (h : s.Sound email start) (hguess : Guess lib settings email s a)
    (hcode : ¬ (a.email = email ∧ a.wrongCode lib s.db)) :
    (loginStep lib settings s a).Sound email start := by
  have hwait := h.bounded.wait hguess.inTurn
  rcases handle_cases lib settings s.db a with ⟨user, huser, hopen, hwrong, hdb⟩ | ⟨hright, hdb⟩ |
    ⟨user, remaining, tokens, huser, -, hok, husers⟩
  · have haccount : (s.db.setUser (user.loginFailed a.now)).account? email =
        if a.email = email then some (user.loginFailed a.now) else s.db.account? email :=
      account?_setUser h.ids huser (by unfold User.loginFailed; split <;> rfl)
        (by unfold User.loginFailed; split <;> rfl)
    have hrun : (loginStep lib settings s a).db = s.db.setUser (user.loginFailed a.now) := hdb
    refine ⟨hrun ▸ ids_setUser h.ids, ?_⟩
    by_cases hemail : a.email = email
    · subst hemail
      rw [if_pos rfl] at haccount
      rw [wrongAt_loginStep_self (Bool.not_eq_true _ ▸ fun hbad => hcode ⟨rfl, hbad⟩),
        if_pos hwrong,
        hrun, counterOf_eq haccount, strike_loginFailed, ← counterOf_eq huser]
      refine hwait.strike ?_
      rw [counterOf_eq huser, locked_iff, hopen]
      exact Bool.false_ne_true
    · rw [if_neg hemail] at haccount
      rw [wrongAt_loginStep_of_ne hemail, hrun, counterOf_congr haccount]
      exact hwait
  · have hrun : (loginStep lib settings s a).db = s.db := hdb
    refine ⟨hrun ▸ h.ids, ?_⟩
    by_cases hemail : a.email = email
    · subst hemail
      rw [wrongAt_loginStep_self (Bool.not_eq_true _ ▸ fun hbad => hcode ⟨rfl, hbad⟩), hright, hrun]
      exact hwait
    · rw [wrongAt_loginStep_of_ne hemail, hrun]
      exact hwait
  · have hemail : a.email ≠ email := fun heq => hguess.fails heq tokens hok
    have hrun : (loginStep lib settings s a).db.users = _ := husers
    have haccount : (loginStep lib settings s a).db.account? email = s.db.account? email := by
      unfold AuthDatabase.account?
      rw [hrun]
      have hset : (s.db.setUser { user with
          recoveryCodeHashes := remaining, failedLoginCount := 0, lockedUntil := none }).account?
            email = _ := account?_setUser h.ids huser rfl rfl
      exact hset.trans (if_neg hemail)
    refine ⟨hrun ▸ ids_setUser h.ids, ?_⟩
    rw [wrongAt_loginStep_of_ne hemail, counterOf_congr haccount]
    exact hwait

/-- **The lockout.**  Over every timed run of login attempts at any accounts, one at
a time, without a success at one account and with no wrong code checked there: in
every half-open window of 15 minutes at most five attempts at that account have a
wrong credential checked, and after five of them every attempt in the window is
refused with none checked. -/
theorem login_lockout (lib : AuthLibraries) (settings : AuthSettings) (email : String)
    {t : LoginRun} (hids : (s.db.users.map User.id).Nodup) (hstart : s.wrong = [])
    {attempts : List LoginAttempt}
    (hrun : Run (Guarded (fun s a => Guess lib settings email s a ∧
      ¬ (a.email = email ∧ a.wrongCode lib s.db)) (Steps (loginStep lib settings))) s attempts t)
    (start : Time) :
    within start (minutes 15) (t.wrongAt email) ≤ 5 ∧
      (5 ≤ within start (minutes 15) (t.wrongAt email) →
        ∀ a : LoginAttempt, a.email = email → t.now ≤ a.now → a.now < start + minutes 15 →
          a.handle lib settings t.db = (t.db, .error ⟨429, "Too many requests"⟩) ∨
            a.handle lib settings t.db =
              (t.db, .error ⟨423, "Account is temporarily locked"⟩)) := by
  have hsound : t.Sound email start := by
    refine hrun.invariant ⟨hids, ?_⟩ fun s a t h hstep => ?_
    · unfold LoginRun.wrongAt
      rw [hstart]
      exact Bounded.nil (by decide) _ _
    · exact hstep.2 ▸ sound_loginStep h hstep.1.1 hstep.1.2
  refine ⟨hsound.bounded.le, fun hall a hemail hlater hend => ?_⟩
  have hlocked := hsound.bounded.locked hall hlater hend
  cases haccount : t.db.account? email with
  | none =>
    unfold counterOf at hlocked
    rw [haccount] at hlocked
    obtain ⟨_, hnone, -⟩ := hlocked
    cases hnone
  | some user =>
    rw [counterOf_eq haccount, locked_iff] at hlocked
    exact handle_locked (hemail ▸ haccount) hlocked

end Runs

/-! ### Wrong codes -/

/-- One account with a second factor. -/
def mfaUser : AuthDatabase where
  users := [{
    id := 0
    email := "u@example.com"
    passwordHash := "$pw"
    isVerified := true
    mfaEnabled := true
    mfaSecretEncrypted := some "secret" }]

/-- An attempt with a password and a code. -/
def tryAt (now : Time) (password code : String) : LoginAttempt where
  now := now
  email := "u@example.com"
  password := password
  totpCode := some code

/-- Five wrong passwords in five seconds. -/
def fivePasswords : List LoginAttempt :=
  [tryAt 0 "a" "000000", tryAt 1000000 "b" "000000", tryAt 2000000 "c" "000000",
    tryAt 3000000 "d" "000000", tryAt 4000000 "e" "000000"]

theorem guess_of_error {lib : AuthLibraries} {settings : AuthSettings} {email : String}
    {s : LoginRun} {a : LoginAttempt} {e : HttpError} (hturn : s.now ≤ a.now)
    (herror : (a.handle lib settings s.db).2 = .error e) (hright : ¬ a.wrongCode lib s.db) :
    Guess lib settings email s a ∧ ¬ (a.email = email ∧ a.wrongCode lib s.db) := by
  refine ⟨⟨hturn, fun _ tokens hok => ?_⟩, fun hcode => hright hcode.2⟩
  rw [herror] at hok
  cases hok

theorem fivePasswords_guess : Run (Guarded (fun s a =>
      Guess sampleLibraries {} "u@example.com" s a ∧
        ¬ (a.email = "u@example.com" ∧ a.wrongCode sampleLibraries s.db))
    (Steps (loginStep sampleLibraries {}))) ⟨mfaUser, 0, []⟩ fivePasswords
    (fivePasswords.foldl (loginStep sampleLibraries {}) ⟨mfaUser, 0, []⟩) := by
  have hmeets : StepsMeet (loginStep sampleLibraries {}) (fun s a => s.now ≤ a.now ∧
      (a.handle sampleLibraries {} s.db).2 = .error invalidCredentials ∧
      ¬ a.wrongCode sampleLibraries s.db) ⟨mfaUser, 0, []⟩ fivePasswords := by
    decide +kernel
  refine (run_of_stepsMeet hmeets).mono ?_
  rintro s a t ⟨⟨hturn, herror, hright⟩, hstep⟩
  exact ⟨guess_of_error hturn herror hright, hstep⟩

/-- The sixth attempt, with the right password, is refused. -/
theorem login_lockout_fivePasswords :
    within 0 (minutes 15) ((fivePasswords.foldl (loginStep sampleLibraries {})
      ⟨mfaUser, 0, []⟩).wrongAt "u@example.com") = 5 ∧
    ∀ tokens, ((tryAt 5000000 "pw" "000000").handle sampleLibraries {}
      (fivePasswords.foldl (loginStep sampleLibraries {}) ⟨mfaUser, 0, []⟩).db).2 ≠ .ok tokens := by
  have hfive : within 0 (minutes 15) ((fivePasswords.foldl (loginStep sampleLibraries {})
      ⟨mfaUser, 0, []⟩).wrongAt "u@example.com") = 5 := by decide +kernel
  refine ⟨hfive, fun tokens hok => ?_⟩
  rcases (login_lockout sampleLibraries {} "u@example.com" (by decide) rfl fivePasswords_guess
    0).2 hfive.ge (tryAt 5000000 "pw" "000000") rfl (by decide) (by decide) with hrefused | hrefused
  all_goals
    rw [hrefused] at hok
    cases hok

/-- Six codes in six seconds. -/
def sixCodes : List LoginAttempt :=
  [tryAt 0 "pw" "000000", tryAt 1000000 "pw" "000001", tryAt 2000000 "pw" "000002",
    tryAt 3000000 "pw" "000003", tryAt 4000000 "pw" "000004", tryAt 5000000 "pw" "000005"]

/-- **Wrong codes are not counted**: six are checked in a row. -/
theorem wrong_codes_not_counted :
    within 0 (minutes 15) ((sixCodes.foldl (loginStep sampleLibraries {}) ⟨mfaUser, 0, []⟩).wrongAt
      "u@example.com") = 6 ∧
    ∀ before ∈ sixCodes.inits, ∀ a ∈ sixCodes, (a.handle sampleLibraries {}
      (before.foldl (loginStep sampleLibraries {}) ⟨mfaUser, 0, []⟩).db).2 =
        .error invalidCredentials := by
  decide +kernel

end GnkAlgo
