import GnkAlgo.Auth.OneTime
import GnkAlgo.Auth.SessionRuns

/-!
# One effect for each credential

* `RedeemRun.Spent` — the credential is marked as used wherever it is kept;
* `RedeemRun.Backed` — what the tables say about the check a request has passed;
* `sound_redeemStep` — a step that is not disturbed keeps every credential with
  one request;
* `credential_effect_once` — so over runs, and a ticket needs no such condition.
-/

namespace GnkAlgo

open Transition SingleUse Upserts

/-! ## Rows -/

namespace RedeemRun

/-- The `UNIQUE` constraints of the tables. -/
structure Unique (s : RedeemRun) : Prop where
  tokens : (s.auth.oneTimeTokens.map OneTimeToken.tokenHash).Nodup
  emails : (s.auth.users.map User.email).Nodup
  states : (s.broker.states.map OAuthState.stateHash).Nodup
  tickets : (s.tickets.map MarketWsTicket.tokenHash).Nodup

/-- The credential is marked as used. -/
structure Spent (s : RedeemRun) (credential : Credential) : Prop where
  token : ∀ row ∈ s.auth.oneTimeTokens, row.credential = credential → row.usedAt ≠ none
  state : ∀ row ∈ s.broker.states, row.credential = credential → row.usedAt ≠ none
  ticket : ∀ row ∈ s.tickets, row.credential = credential → row.usedAt ≠ none
  code : ∀ row ∈ s.auth.users, ∀ digest ∈ row.recoveryCodeHashes,
    .recoveryCode row.email digest ≠ credential

/-- The rows are those there were, and none that was used is not. -/
structure Later (s t : RedeemRun) : Prop where
  tokens : List.Forall₂ (fun row row' : OneTimeToken => row'.id = row.id ∧
      row'.tokenHash = row.tokenHash ∧ row'.purpose = row.purpose ∧
      (row.usedAt ≠ none → row'.usedAt ≠ none))
    s.auth.oneTimeTokens t.auth.oneTimeTokens
  users : List.Forall₂ (fun row row' : User => row'.id = row.id ∧ row'.email = row.email ∧
      row'.recoveryCodeHashes ⊆ row.recoveryCodeHashes)
    s.auth.users t.auth.users
  states : List.Forall₂ (fun row row' : OAuthState => row'.id = row.id ∧
      row'.stateHash = row.stateHash ∧ row'.broker = row.broker ∧
      (row.usedAt ≠ none → row'.usedAt ≠ none))
    s.broker.states t.broker.states
  tickets : List.Forall₂ (fun row row' : MarketWsTicket => row'.id = row.id ∧
      row'.tokenHash = row.tokenHash ∧ (row.usedAt ≠ none → row'.usedAt ≠ none))
    s.tickets t.tickets

section Later

variable {s t : RedeemRun} {credential : Credential}

theorem Later.of_rows (hauth : t.auth = s.auth) (hbroker : t.broker = s.broker)
    (htickets : t.tickets = s.tickets) : s.Later t := by
  refine ⟨?_, ?_, ?_, ?_⟩
  · rw [hauth]
    exact List.forall₂_same.2 fun _ _ => ⟨rfl, rfl, rfl, fun h => h⟩
  · rw [hauth]
    exact List.forall₂_same.2 fun _ _ => ⟨rfl, rfl, List.Subset.refl _⟩
  · rw [hbroker]
    exact List.forall₂_same.2 fun _ _ => ⟨rfl, rfl, rfl, fun h => h⟩
  · rw [htickets]
    exact List.forall₂_same.2 fun _ _ => ⟨rfl, rfl, fun h => h⟩

theorem Later.unique (h : s.Later t) (hunique : s.Unique) : t.Unique where
  tokens := by
    rw [Rows.map_eq_of_forall₂ h.tokens fun _ _ hrow => hrow.2.1]
    exact hunique.tokens
  emails := by
    rw [Rows.map_eq_of_forall₂ h.users fun _ _ hrow => hrow.2.1]
    exact hunique.emails
  states := by
    rw [Rows.map_eq_of_forall₂ h.states fun _ _ hrow => hrow.2.1]
    exact hunique.states
  tickets := by
    rw [Rows.map_eq_of_forall₂ h.tickets fun _ _ hrow => hrow.2.1]
    exact hunique.tickets

/-- What is spent stays spent. -/
theorem Later.spent (h : s.Later t) (hspent : s.Spent credential) : t.Spent credential where
  token row' hrow' hcredential := by
    obtain ⟨row, hrow, -, hhash, hpurpose, hused⟩ := Rows.exists_left_of_forall₂ h.tokens hrow'
    refine hused (hspent.token row hrow ?_)
    rw [OneTimeToken.credential, ← hhash, ← hpurpose]
    exact hcredential
  state row' hrow' hcredential := by
    obtain ⟨row, hrow, -, hhash, hbroker, hused⟩ := Rows.exists_left_of_forall₂ h.states hrow'
    refine hused (hspent.state row hrow ?_)
    rw [OAuthState.credential, ← hhash, ← hbroker]
    exact hcredential
  ticket row' hrow' hcredential := by
    obtain ⟨row, hrow, -, hhash, hused⟩ := Rows.exists_left_of_forall₂ h.tickets hrow'
    refine hused (hspent.ticket row hrow ?_)
    rw [MarketWsTicket.credential, ← hhash]
    exact hcredential
  code row' hrow' digest hdigest := by
    obtain ⟨row, hrow, -, hemail, hcodes⟩ := Rows.exists_left_of_forall₂ h.users hrow'
    rw [hemail]
    exact hspent.code row hrow digest (hcodes hdigest)

end Later

/-! ## Requests -/

/-- What the tables say about the check a request has passed. -/
def Backed (s : RedeemRun) (r : ℕ) : RedeemPhase → Prop
  | .tokenChecked t _ => ∃ row ∈ s.auth.oneTimeTokens, row.id = t.id ∧ row.credential = t.credential
  | .loginChecked user consumed => ∀ digest remaining, consumed = some (digest, remaining) →
      digest ∈ user.recoveryCodeHashes ∧ remaining = user.recoveryCodeHashes.filter (· ≠ digest) ∧
        ∃ row ∈ s.auth.users, row.id = user.id ∧ row.email = user.email
  | .stateChecked _ saved _ =>
    ∃ row ∈ s.broker.states, row.id = saved.id ∧ row.credential = saved.credential
  | .exchanging _ saved _ =>
    ∃ row ∈ s.broker.states, row.id = saved.id ∧ row.credential = saved.credential
  | .exchangeLost _ => False
  | .ticketHeld t => s.locks t.id = some r ∧
      ∃ row ∈ s.tickets, row.id = t.id ∧ row.credential = t.credential ∧ row.usedAt = none
  | .ticketRefused t => s.locks t.id = some r
  | _ => True

/-- States of runs that are not disturbed. -/
structure Sound (s : RedeemRun) : Prop where
  unique : s.Unique
  backed : ∀ r, s.Backed r (s.requests r)
  exclusive : Exclusive s.Spent fun r => (s.requests r).use

end RedeemRun

section Requests

variable {s t : RedeemRun} {r : ℕ} {phase : RedeemPhase}

/-- A row that a request goes by is still there. -/
theorem RedeemRun.Later.backed (h : s.Later t)
    (hlocks : ∀ id, s.locks id = some r → t.locks id = some r ∧
      ∀ row ∈ s.tickets, row.id = id → row ∈ t.tickets)
    (hbacked : s.Backed r phase) : t.Backed r phase := by
  have hstate : ∀ saved : OAuthState,
      (∃ row ∈ s.broker.states, row.id = saved.id ∧ row.credential = saved.credential) →
      ∃ row ∈ t.broker.states, row.id = saved.id ∧ row.credential = saved.credential := by
    rintro saved ⟨row, hrow, hid, hcredential⟩
    obtain ⟨row', hrow', hid', hhash, hbroker, -⟩ := Rows.exists_right_of_forall₂ h.states hrow
    refine ⟨row', hrow', hid'.trans hid, ?_⟩
    rw [OAuthState.credential, hhash, hbroker]
    exact hcredential
  cases phase with
  | tokenChecked token password =>
    obtain ⟨row, hrow, hid, hcredential⟩ := hbacked
    obtain ⟨row', hrow', hid', hhash, hpurpose, -⟩ := Rows.exists_right_of_forall₂ h.tokens hrow
    refine ⟨row', hrow', hid'.trans hid, ?_⟩
    rw [OneTimeToken.credential, hhash, hpurpose]
    exact hcredential
  | loginChecked user consumed =>
    intro digest remaining hconsumed
    obtain ⟨hdigest, hremaining, row, hrow, hid, hemail⟩ := hbacked digest remaining hconsumed
    obtain ⟨row', hrow', hid', hemail', -⟩ := Rows.exists_right_of_forall₂ h.users hrow
    exact ⟨hdigest, hremaining, row', hrow', hid'.trans hid, hemail'.trans hemail⟩
  | stateChecked call saved usedAt => exact hstate saved hbacked
  | exchanging call saved usedAt => exact hstate saved hbacked
  | exchangeLost credential => exact hbacked
  | ticketHeld ticket =>
    obtain ⟨hlock, row, hrow, hid, hrest⟩ := hbacked
    obtain ⟨hlock', hkept⟩ := hlocks ticket.id hlock
    exact ⟨hlock', row, hkept row hrow hid, hid, hrest⟩
  | ticketRefused ticket => exact (hlocks ticket.id hbacked).1
  | idle => trivial
  | loginWrong user => trivial
  | performed credential => trivial
  | ended => trivial

/-- What a step has to show for the request that takes it. -/
theorem RedeemRun.Sound.next (h : s.Sound) (hlater : s.Later t)
    (ht : t.requests = Function.update s.requests r phase)
    (hlocks : ∀ r' id, r' ≠ r → s.locks id = some r' → t.locks id = some r' ∧
      ∀ row ∈ s.tickets, row.id = id → row ∈ t.tickets)
    (hphase : t.Backed r phase)
    (hexclusive : Exclusive t.Spent (Function.update (fun q => (s.requests q).use) r phase.use)) :
    t.Sound := by
  refine ⟨hlater.unique h.unique, fun r' => ?_, ?_⟩
  · rw [ht, Function.update_apply]
    split
    · rename_i heq
      exact heq ▸ hphase
    · rename_i hne
      exact hlater.backed (fun id hlock => hlocks r' id hne hlock) (h.backed r')
  · have huse : (fun q => (t.requests q).use) =
        Function.update (fun q => (s.requests q).use) r phase.use := by
      funext q
      rw [ht, Function.update_apply, Function.update_apply]
      split
      · rfl
      · rfl
    rw [huse]
    exact hexclusive

/-- A step that changes no row. -/
theorem RedeemRun.Sound.become (h : s.Sound) (hphase : s.Backed r phase)
    (huse : phase.use = (s.requests r).use) : (s.become r phase).Sound := by
  refine h.next (.of_rows rfl rfl rfl) rfl (fun r' id _ hlock => ⟨hlock, fun row hrow _ => hrow⟩)
    ?_ ?_
  · cases phase with
    | _ => exact hphase
  · rw [huse, Function.update_eq_self]
    exact h.exclusive.mono fun credential hspent => ⟨hspent.token, hspent.state, hspent.ticket,
      hspent.code⟩

/-- Only a state is with a request before it is marked. -/
theorem use_unmarked {credential : Credential} (hbacked : s.Backed r phase)
    (huse : phase.use = some (credential, false)) :
    ∃ call saved usedAt, phase = .exchanging call saved usedAt ∧ saved.credential = credential := by
  cases phase with
  | exchanging call saved usedAt =>
    exact ⟨call, saved, usedAt, rfl, (Prod.mk.inj (Option.some_inj.1 huse)).1⟩
  | exchangeLost => exact hbacked.elim
  | performed credential => cases credential <;> cases huse
  | _ => cases huse

end Requests

/-! ## Steps -/

section Step

variable {lib : BrokerLibraries} {settings : AuthSettings} {s : RedeemRun} {r : ℕ}

/-- Two rows with one digest are one row. -/
theorem RedeemRun.Unique.state (h : s.Unique) {row row' : OAuthState} (hrow : row ∈ s.broker.states)
    (hrow' : row' ∈ s.broker.states) (hsame : row.credential = row'.credential) : row = row' :=
  List.inj_on_of_nodup_map h.states hrow hrow' (Credential.oauthState.inj hsame).2

theorem RedeemRun.Unique.token (h : s.Unique) {row row' : OneTimeToken}
    (hrow : row ∈ s.auth.oneTimeTokens) (hrow' : row' ∈ s.auth.oneTimeTokens)
    (hsame : row.credential = row'.credential) : row = row' :=
  List.inj_on_of_nodup_map h.tokens hrow hrow' (Credential.oneTime.inj hsame).2

theorem RedeemRun.Unique.ticket (h : s.Unique) {row row' : MarketWsTicket} (hrow : row ∈ s.tickets)
    (hrow' : row' ∈ s.tickets) (hsame : row.credential = row'.credential) : row = row' :=
  List.inj_on_of_nodup_map h.tickets hrow hrow' (Credential.ticket.inj hsame)

/-- A credential that is no state is with no request before it is marked. -/
theorem RedeemRun.Sound.unheld (h : s.Sound) {credential : Credential}
    (hkind : ∀ saved : OAuthState, saved.credential ≠ credential) (r' : ℕ) :
    (s.requests r').use ≠ some (credential, false) := by
  intro huse
  obtain ⟨_, saved, _, -, hsaved⟩ := use_unmarked (h.backed r') huse
  exact hkind saved hsaved

/-- **The exchange** begins. -/
theorem sound_exchange (h : s.Sound) {call : CallbackCall} {saved : OAuthState} {usedAt : Time}
    (hchecked : s.requests r = .stateChecked call saved usedAt)
    (hunused : ∀ row ∈ s.broker.states, row.id = saved.id → row.usedAt = none)
    (halone : ∀ r call' saved' usedAt', s.requests r = .exchanging call' saved' usedAt' →
      saved'.id ≠ saved.id) : (s.become r (.exchanging call saved usedAt)).Sound := by
  have hbacked := h.backed r
  rw [hchecked] at hbacked
  obtain ⟨row, hrow, hid, hcredential⟩ := hbacked
  have hlater : s.Later (s.become r (.exchanging call saved usedAt)) := .of_rows rfl rfl rfl
  refine h.next hlater rfl (fun r' id _ hlock => ⟨hlock, fun row hrow _ => hrow⟩)
    ⟨row, hrow, hid, hcredential⟩
    ((h.exclusive.hold ?_ fun r' huse => ?_).mono fun _ => hlater.spent)
  · exact fun hspent => hspent.state row hrow hcredential (hunused row hrow hid)
  · have hbacked' := h.backed r'
    obtain ⟨call', saved', usedAt', hphase, hsame⟩ := use_unmarked hbacked' huse
    rw [hphase] at hbacked'
    obtain ⟨row', hrow', hid', hcredential'⟩ := hbacked'
    have heq : row' = row := h.unique.state hrow' hrow
      (hcredential'.trans (hsame.trans hcredential.symm))
    exact halone r' call' saved' usedAt' hphase (hid'.symm.trans (heq ▸ hid))

/-- **The answer of the broker**: the state is marked. -/
theorem sound_answer (h : s.Sound) {call : CallbackCall} {saved : OAuthState} {usedAt : Time}
    {d : BrokerDatabase} (hexchanging : s.requests r = .exchanging call saved usedAt)
    (hstates : d.states = (markUsed s.broker saved usedAt).states) :
    ({ s with broker := d }.become r (.performed (some saved.credential))).Sound := by
  have hbacked := h.backed r
  rw [hexchanging] at hbacked
  obtain ⟨row, hrow, hid, hcredential⟩ := hbacked
  have hupdate : d.states = updateById OAuthState.id saved.id
      (fun o => { o with usedAt := some usedAt }) s.broker.states := hstates
  have hlater : s.Later ({ s with broker := d }.become r (.performed (some saved.credential))) := by
    refine ⟨List.forall₂_same.2 fun _ _ => ⟨rfl, rfl, rfl, fun h => h⟩,
      List.forall₂_same.2 fun _ _ => ⟨rfl, rfl, List.Subset.refl _⟩, ?_,
      List.forall₂_same.2 fun _ _ => ⟨rfl, rfl, fun h => h⟩⟩
    change List.Forall₂ _ _ d.states
    rw [hupdate]
    exact forall₂_updateById (fun _ => ⟨rfl, rfl, rfl, fun h => h⟩)
      fun _ _ _ => ⟨rfl, rfl, rfl, fun _ => Option.some_ne_none _⟩
  refine h.next hlater rfl (fun r' id _ hlock => ⟨hlock, fun row hrow _ => hrow⟩) trivial
    ((h.exclusive.mono fun _ => hlater.spent).settle ?_ ⟨?_, ?_, ?_, ?_⟩)
  · rw [hexchanging, RedeemPhase.use]
  · exact fun _ _ heq => nomatch heq
  · intro row' hrow' hsame
    change row' ∈ d.states at hrow'
    rw [hupdate] at hrow'
    obtain ⟨found, hfound, rfl⟩ := List.mem_map.1 hrow'
    split at hsame
    · rename_i heq
      rw [if_pos heq]
      exact Option.some_ne_none _
    · rename_i hne
      exact absurd (h.unique.state hfound hrow (hsame.trans hcredential.symm) ▸ hid) hne
  · exact fun _ _ heq => nomatch heq
  · exact fun _ _ _ _ heq => nomatch heq

theorem useToken_tokens {lib : AuthLibraries} {now : Time} {d : AuthDatabase} {t : OneTimeToken}
    {password : Option String} : (useToken lib now d t password).oneTimeTokens =
      updateById OneTimeToken.id t.id (fun row => { row with usedAt := some now })
        d.oneTimeTokens := by
  cases password <;> rfl

theorem useToken_users (lib : AuthLibraries) (now : Time) (d : AuthDatabase) (t : OneTimeToken)
    (password : Option String) : ∃ f : User → User, (useToken lib now d t password).users =
      updateById User.id t.userId f d.users ∧
      ∀ row, (f row).id = row.id ∧ (f row).email = row.email ∧
        (f row).recoveryCodeHashes ⊆ row.recoveryCodeHashes := by
  cases password with
  | none => exact ⟨_, rfl, fun _ => ⟨rfl, rfl, List.Subset.refl _⟩⟩
  | some password => exact ⟨_, rfl, fun _ => ⟨rfl, rfl, List.Subset.refl _⟩⟩

/-- **The commit of a token** that is still unused. -/
theorem sound_useToken (h : s.Sound) {t : OneTimeToken} {password : Option String} {now : Time}
    (hchecked : s.requests r = .tokenChecked t password)
    (hunused : ∀ row ∈ s.auth.oneTimeTokens, row.id = t.id → row.usedAt = none) :
    ({ s with auth := useToken lib.toAuthLibraries now s.auth t password }.become r
      (.performed (some t.credential))).Sound := by
  have hbacked := h.backed r
  rw [hchecked] at hbacked
  obtain ⟨row, hrow, hid, hcredential⟩ := hbacked
  have hlater : s.Later ({ s with
      auth := useToken lib.toAuthLibraries now s.auth t password }.become r
      (.performed (some t.credential))) := by
    refine ⟨?_, ?_, List.forall₂_same.2 fun _ _ => ⟨rfl, rfl, rfl, fun h => h⟩,
      List.forall₂_same.2 fun _ _ => ⟨rfl, rfl, fun h => h⟩⟩
    · change List.Forall₂ _ _ (useToken lib.toAuthLibraries now s.auth t password).oneTimeTokens
      rw [useToken_tokens]
      exact forall₂_updateById (fun _ => ⟨rfl, rfl, rfl, fun h => h⟩)
        fun _ _ _ => ⟨rfl, rfl, rfl, fun _ => Option.some_ne_none _⟩
    · change List.Forall₂ _ _ (useToken lib.toAuthLibraries now s.auth t password).users
      obtain ⟨f, husers, hf⟩ := useToken_users lib.toAuthLibraries now s.auth t password
      rw [husers]
      exact forall₂_updateById (fun _ => ⟨rfl, rfl, List.Subset.refl _⟩) fun row _ _ => hf row
  refine h.next hlater rfl (fun r' id _ hlock => ⟨hlock, fun row hrow _ => hrow⟩) trivial
    (h.exclusive.take ?_ (h.unheld fun _ heq => nomatch heq) (fun _ => hlater.spent) ⟨?_, ?_, ?_, ?_⟩)
  · exact fun hspent => hspent.token row hrow hcredential (hunused row hrow hid)
  · intro row' hrow' hsame
    change row' ∈ (useToken lib.toAuthLibraries now s.auth t password).oneTimeTokens at hrow'
    rw [useToken_tokens] at hrow'
    obtain ⟨found, hfound, rfl⟩ := List.mem_map.1 hrow'
    split at hsame
    · rename_i heq
      rw [if_pos heq]
      exact Option.some_ne_none _
    · rename_i hne
      exact absurd (h.unique.token hfound hrow (hsame.trans hcredential.symm) ▸ hid) hne
  · exact fun _ _ heq => nomatch heq
  · exact fun _ _ heq => nomatch heq
  · exact fun _ _ _ _ heq => nomatch heq

/-- Rows of users that keep what a credential is known by. -/
theorem RedeemRun.Later.of_users (d : AuthDatabase) (id : Uuid) (f : User → User)
    (htokens : d.oneTimeTokens = s.auth.oneTimeTokens)
    (husers : d.users = updateById User.id id f s.auth.users)
    (hf : ∀ row ∈ s.auth.users, row.id = id → (f row).id = row.id ∧ (f row).email = row.email ∧
      (f row).recoveryCodeHashes ⊆ row.recoveryCodeHashes) (phase : RedeemPhase) :
    s.Later ({ s with auth := d }.become r phase) := by
  refine ⟨?_, ?_, List.forall₂_same.2 fun _ _ => ⟨rfl, rfl, rfl, fun h => h⟩,
    List.forall₂_same.2 fun _ _ => ⟨rfl, rfl, fun h => h⟩⟩
  · change List.Forall₂ _ _ d.oneTimeTokens
    rw [htokens]
    exact List.forall₂_same.2 fun _ _ => ⟨rfl, rfl, rfl, fun h => h⟩
  · change List.Forall₂ _ _ d.users
    rw [husers]
    exact forall₂_updateById (fun _ => ⟨rfl, rfl, List.Subset.refl _⟩) hf

/-- **The commit of a wrong password.** -/
theorem sound_countWrong (h : s.Sound) (user : User) (now : Time) :
    ({ s with auth := countWrong now s.auth user }.become r .ended).Sound := by
  have hlater : s.Later ({ s with auth := countWrong now s.auth user }.become r .ended) :=
    .of_users (countWrong now s.auth user) user.id _ rfl rfl
      (fun _ _ _ => ⟨rfl, rfl, List.Subset.refl _⟩) _
  exact h.next hlater rfl (fun r' id _ hlock => ⟨hlock, fun row hrow _ => hrow⟩) trivial
    ((h.exclusive.drop r).mono fun _ => hlater.spent)

/-- **The commit of a login** that finds the recovery codes it has read. -/
theorem sound_letIn (h : s.Sound) {user : User} {consumed : Option (String × List String)}
    {now : Time} (hchecked : s.requests r = .loginChecked user consumed)
    (hcodes : ∀ digest remaining, consumed = some (digest, remaining) →
      ∀ row ∈ s.auth.users, row.id = user.id → row.recoveryCodeHashes = user.recoveryCodeHashes) :
    ({ s with auth := letIn lib.toAuthLibraries settings now s.auth user consumed }.become r
      (.performed (consumed.map fun c : String × List String =>
        .recoveryCode user.email c.1))).Sound := by
  have hbacked := h.backed r
  rw [hchecked] at hbacked
  set phase : RedeemPhase := .performed (consumed.map fun c : String × List String =>
    .recoveryCode user.email c.1) with hphase
  set f : User → User := fun row => { row with
    recoveryCodeHashes := (consumed.map Prod.snd).getD row.recoveryCodeHashes
    failedLoginCount := if user.failedLoginCount = 0 then row.failedLoginCount else 0
    lockedUntil := if user.lockedUntil = none then row.lockedUntil else none } with hf
  have husers : (letIn lib.toAuthLibraries settings now s.auth user consumed).users =
      updateById User.id user.id f s.auth.users := rfl
  have hlater : s.Later ({ s with
      auth := letIn lib.toAuthLibraries settings now s.auth user consumed }.become r phase) := by
    refine .of_users (letIn lib.toAuthLibraries settings now s.auth user consumed) user.id f rfl
      husers (fun row hrow hid => ⟨rfl, rfl, ?_⟩) _
    change (consumed.map Prod.snd).getD row.recoveryCodeHashes ⊆ row.recoveryCodeHashes
    cases hconsumed : consumed with
    | none => exact List.Subset.refl _
    | some c =>
      obtain ⟨digest, remaining⟩ := c
      obtain ⟨-, hremaining, -⟩ := hbacked digest remaining hconsumed
      rw [hcodes digest remaining hconsumed row hrow hid, hremaining]
      exact List.filter_subset_self _
  cases hconsumed : consumed with
  | none =>
    have huse : phase.use = none := by rw [hphase, hconsumed]; rfl
    rw [hconsumed] at hlater
    refine h.next hlater rfl (fun r' id _ hlock => ⟨hlock, fun row hrow _ => hrow⟩) trivial ?_
    rw [huse]
    exact (h.exclusive.drop r).mono fun _ => hlater.spent
  | some c =>
    obtain ⟨digest, remaining⟩ := c
    obtain ⟨hdigest, hremaining, row, hrow, hid, hemail⟩ := hbacked digest remaining hconsumed
    have huse : phase.use = some (.recoveryCode user.email digest, true) := by
      rw [hphase, hconsumed]; rfl
    rw [hconsumed] at hlater husers
    refine h.next hlater rfl (fun r' id _ hlock => ⟨hlock, fun row hrow _ => hrow⟩) trivial ?_
    rw [huse]
    refine h.exclusive.take ?_ (h.unheld fun _ heq => nomatch heq) (fun _ => hlater.spent)
      ⟨(fun _ _ heq => nomatch heq), (fun _ _ heq => nomatch heq), (fun _ _ heq => nomatch heq), ?_⟩
    · refine fun hspent => hspent.code row hrow digest ?_ (by rw [hemail])
      rw [hcodes digest remaining hconsumed row hrow hid]
      exact hdigest
    · intro row' hrow' digest' hdigest' heq
      obtain ⟨hemail', hsame⟩ := Credential.recoveryCode.inj heq
      change row' ∈ (letIn lib.toAuthLibraries settings now s.auth user
        (some (digest, remaining))).users at hrow'
      rw [husers] at hrow'
      obtain ⟨found, hfound, rfl⟩ := List.mem_map.1 hrow'
      split at hdigest'
      · rw [hf, hconsumed, hsame] at hdigest'
        rw [hremaining] at hdigest'
        simp at hdigest'
      · rename_i hne
        rw [if_neg hne] at hemail'
        exact hne (List.inj_on_of_nodup_map h.unique.emails hfound hrow
          (hemail'.trans hemail.symm) ▸ hid)

/-- Another request's lock is on another row. -/
theorem RedeemRun.locks_setLock {id other : Uuid} {r' : ℕ} {holder : Option ℕ}
    (hmine : s.locks id = none ∨ s.locks id = some r) (hne : r' ≠ r)
    (hlock : s.locks other = some r') :
    other ≠ id ∧ (s.setLock id holder).locks other = some r' := by
  have hother : other ≠ id := by
    rintro rfl
    rcases hmine with hnone | hsome
    · rw [hnone] at hlock; cases hlock
    · rw [hsome] at hlock
      exact hne (Option.some_inj.1 hlock).symm
  exact ⟨hother, (Function.update_of_ne hother ..).trans hlock⟩

/-- **The lock** of a ticket. -/
theorem sound_lockTicket (h : s.Sound) {t : MarketWsTicket} {phase : RedeemPhase}
    (hidle : s.requests r = .idle) (hrow : t ∈ s.tickets) (hfree : s.locks t.id = none)
    (hphase : phase = .ticketRefused t ∨ phase = .ticketHeld t ∧ t.usedAt = none) :
    ((s.setLock t.id (some r)).become r phase).Sound := by
  have hlater : s.Later ((s.setLock t.id (some r)).become r phase) := .of_rows rfl rfl rfl
  have hself : (s.setLock t.id (some r)).locks t.id = some r := Function.update_self ..
  have huse : phase.use = (s.requests r).use := by
    rw [hidle]
    rcases hphase with rfl | ⟨rfl, -⟩ <;> rfl
  refine h.next hlater rfl (fun r' id hne hlock =>
    ⟨(RedeemRun.locks_setLock (Or.inl hfree) hne hlock).2, fun row hrow _ => hrow⟩) ?_ ?_
  · rcases hphase with rfl | ⟨rfl, hunused⟩
    · exact hself
    · exact ⟨hself, t, hrow, rfl, rfl, hunused⟩
  · rw [huse, Function.update_eq_self]
    exact h.exclusive.mono fun _ => hlater.spent

/-- The holder of a ticket has its lock. -/
theorem locked_backed {t : MarketWsTicket} {phase : RedeemPhase} (hbacked : s.Backed r phase)
    (hlocked : phase.locked = some t) : s.locks t.id = some r := by
  cases phase with
  | ticketHeld =>
    cases hlocked
    exact hbacked.1
  | ticketRefused =>
    cases hlocked
    exact hbacked
  | _ => cases hlocked

/-- **The end of a request** that has a lock. -/
theorem sound_unlock (h : s.Sound) {t : MarketWsTicket}
    (hlocked : (s.requests r).locked = some t) :
    ((s.setLock t.id none).become r .ended).Sound := by
  have hlater : s.Later ((s.setLock t.id none).become r .ended) := .of_rows rfl rfl rfl
  have hmine := locked_backed (h.backed r) hlocked
  exact h.next hlater rfl (fun r' id hne hlock =>
    ⟨(RedeemRun.locks_setLock (Or.inr hmine) hne hlock).2, fun row hrow _ => hrow⟩) trivial
    ((h.exclusive.drop r).mono fun _ => hlater.spent)

/-- **The commit of a ticket**: its row has been locked since it was read. -/
theorem sound_useTicket (h : s.Sound) {t : MarketWsTicket} (now : Time)
    (hheld : s.requests r = .ticketHeld t) :
    (((s.useTicket now t).setLock t.id none).become r (.performed (some t.credential))).Sound := by
  have hbacked := h.backed r
  rw [hheld] at hbacked
  obtain ⟨hmine, row, hrow, hid, hcredential, hunused⟩ := hbacked
  have hlater : s.Later (((s.useTicket now t).setLock t.id none).become r
      (.performed (some t.credential))) := by
    refine ⟨List.forall₂_same.2 fun _ _ => ⟨rfl, rfl, rfl, fun h => h⟩,
      List.forall₂_same.2 fun _ _ => ⟨rfl, rfl, List.Subset.refl _⟩,
      List.forall₂_same.2 fun _ _ => ⟨rfl, rfl, rfl, fun h => h⟩, ?_⟩
    exact forall₂_updateById (fun _ => ⟨rfl, rfl, fun h => h⟩)
      fun _ _ _ => ⟨rfl, rfl, fun _ => Option.some_ne_none _⟩
  refine h.next hlater rfl (fun r' id hne hlock => ?_) trivial (h.exclusive.take ?_
    (h.unheld fun _ heq => nomatch heq) (fun _ => hlater.spent)
    ⟨(fun _ _ heq => nomatch heq), (fun _ _ heq => nomatch heq), ?_,
      fun _ _ _ _ heq => nomatch heq⟩)
  · have hlock' : (s.useTicket now t).locks id = some r' := hlock
    obtain ⟨hother, hkept⟩ := RedeemRun.locks_setLock (Or.inr hmine) hne hlock'
    exact ⟨hkept, fun row hrow hrowId => mem_updateById_of_ne hrow (hrowId.trans_ne hother)⟩
  · exact fun hspent => hspent.ticket row hrow hcredential hunused
  · intro row' hrow' hsame
    obtain ⟨found, hfound, rfl⟩ := List.mem_map.1 hrow'
    split at hsame
    · rename_i heq
      rw [if_pos heq]
      exact Option.some_ne_none _
    · rename_i hne
      exact absurd (h.unique.ticket hfound hrow (hsame.trans hcredential.symm) ▸ hid) hne

/-- **One step** that is not disturbed. -/
theorem sound_redeemStep (h : s.Sound) {e : RedeemEvent} (huninterrupted : Uninterrupted s e) :
    (redeemStep lib settings s e).Sound := by
  have hmove := redeemStep_move lib settings s e
  generalize redeemStep lib settings s e = t at hmove ⊢
  cases hmove with
  | stay => exact h
  | drop phase hempty huse hlocked =>
    cases phase with
    | idle => exact h.become trivial huse.symm
    | loginWrong user => exact h.become trivial huse.symm
    | ended => exact h.become trivial huse.symm
    | performed credential =>
      cases credential with
      | none => exact h.become trivial huse.symm
      | some credential => cases hempty
    | _ => cases hempty
  | checkToken t password hidle hrow =>
    exact h.become ⟨t, hrow, rfl, rfl⟩ (by rw [hidle]; rfl)
  | checkLogin user consumed hidle hrow hconsumed =>
    refine h.become (fun digest remaining heq => ?_) (by rw [hidle]; rfl)
    obtain ⟨hdigest, hremaining⟩ := hconsumed digest remaining heq
    exact ⟨hdigest, hremaining, user, hrow, rfl, rfl⟩
  | checkState call saved usedAt hidle hrow =>
    exact h.become ⟨saved, hrow, rfl, rfl⟩ (by rw [hidle]; rfl)
  | lockTicket t phase hidle hrow hfree hphase => exact sound_lockTicket h hidle hrow hfree hphase
  | exchange call saved usedAt haction hchecked =>
    obtain ⟨hunused, halone⟩ := huninterrupted.exchange call saved usedAt haction hchecked
    exact sound_exchange h hchecked hunused halone
  | answer call saved usedAt d hexchanging hstates => exact sound_answer h hexchanging hstates
  | lose call saved usedAt haction hexchanging =>
    exact absurd hexchanging (huninterrupted.answer haction call saved usedAt)
  | useToken now t password haction hchecked =>
    exact sound_useToken h hchecked (huninterrupted.token now t password haction hchecked)
  | countWrong now user hwrong => exact sound_countWrong h user now
  | letIn now user consumed haction hchecked =>
    refine sound_letIn h hchecked ?_
    rintro digest remaining rfl
    exact huninterrupted.codes now user digest remaining haction hchecked
  | useTicket now t hheld => exact sound_useTicket h now hheld
  | refuseTicket t hheld =>
    have hbacked := h.backed e.request
    rw [hheld] at hbacked
    exact h.become hbacked.1 (by rw [hheld]; rfl)
  | unlock t hlocked => exact sound_unlock h hlocked

end Step

/-! ## Tickets -/

/-- What the locks of tickets keep, whatever else goes on. -/
structure RedeemRun.TicketsSound (s : RedeemRun) : Prop where
  unique : (s.tickets.map MarketWsTicket.tokenHash).Nodup
  locked : ∀ r t, (s.requests r).locked = some t → s.locks t.id = some r
  held : ∀ r t, s.requests r = .ticketHeld t →
    ∃ row ∈ s.tickets, row.id = t.id ∧ row.tokenHash = t.tokenHash ∧ row.usedAt = none
  used : ∀ r tokenHash, s.requests r = .performed (some (.ticket tokenHash)) →
    ∀ row ∈ s.tickets, row.tokenHash = tokenHash → row.usedAt ≠ none
  once : ∀ r r' tokenHash, s.requests r = .performed (some (.ticket tokenHash)) →
    s.requests r' = .performed (some (.ticket tokenHash)) → r = r'

section Tickets

variable {lib : BrokerLibraries} {settings : AuthSettings} {s t : RedeemRun} {r : ℕ}
  {phase : RedeemPhase}

/-- What a step has to show for the request that takes it. -/
theorem RedeemRun.TicketsSound.next (h : s.TicketsSound)
    (ht : t.requests = Function.update s.requests r phase)
    (hunique : (t.tickets.map MarketWsTicket.tokenHash).Nodup)
    (hlocks : ∀ r' id, r' ≠ r → s.locks id = some r' → t.locks id = some r' ∧
      ∀ row ∈ s.tickets, row.id = id → row ∈ t.tickets)
    (hkept : ∀ row' ∈ t.tickets, ∃ row ∈ s.tickets, row'.tokenHash = row.tokenHash ∧
      (row.usedAt ≠ none → row'.usedAt ≠ none))
    (hlocked : ∀ ticket, phase.locked = some ticket → t.locks ticket.id = some r)
    (hheld : ∀ ticket, phase = .ticketHeld ticket → ∃ row ∈ t.tickets, row.id = ticket.id ∧
      row.tokenHash = ticket.tokenHash ∧ row.usedAt = none)
    (hused : ∀ tokenHash, phase = .performed (some (.ticket tokenHash)) →
      (∀ row ∈ t.tickets, row.tokenHash = tokenHash → row.usedAt ≠ none) ∧
      ∀ r', s.requests r' ≠ .performed (some (.ticket tokenHash))) : t.TicketsSound := by
  have hrequest : ∀ q, t.requests q = if q = r then phase else s.requests q := fun q => by
    rw [ht, Function.update_apply]
  refine ⟨hunique, ?_, ?_, ?_, ?_⟩
  · intro q ticket hq
    rw [hrequest] at hq
    split at hq
    · rename_i heq
      exact heq ▸ hlocked ticket hq
    · rename_i hne
      exact (hlocks q ticket.id hne (h.locked q ticket hq)).1
  · intro q ticket hq
    rw [hrequest] at hq
    split at hq
    · exact hheld ticket hq
    · rename_i hne
      obtain ⟨row, hrow, hid, hrest⟩ := h.held q ticket hq
      have hlock := h.locked q ticket (by rw [hq, RedeemPhase.locked])
      exact ⟨row, (hlocks q ticket.id hne hlock).2 row hrow hid, hid, hrest⟩
  · intro q tokenHash hq
    rw [hrequest] at hq
    split at hq
    · exact (hused tokenHash hq).1
    · intro row' hrow' hhash
      obtain ⟨row, hrow, hsame, hmono⟩ := hkept row' hrow'
      exact hmono (h.used q tokenHash hq row hrow (hsame.symm.trans hhash))
  · intro q q' tokenHash hq hq'
    rw [hrequest] at hq hq'
    split at hq
    · rename_i heq
      split at hq'
      · rename_i heq'
        rw [heq, heq']
      · exact absurd hq' ((hused tokenHash hq).2 q')
    · split at hq'
      · exact absurd hq ((hused tokenHash hq').2 q)
      · exact h.once q q' tokenHash hq hq'

/-- A step that leaves the tickets and their locks. -/
theorem RedeemRun.TicketsSound.of_tickets (h : s.TicketsSound)
    (ht : t.requests = Function.update s.requests r phase) (htickets : t.tickets = s.tickets)
    (hlocks : t.locks = s.locks) (hlocked : phase.locked = none)
    (hused : ∀ tokenHash, phase ≠ .performed (some (.ticket tokenHash))) : t.TicketsSound := by
  refine h.next ht (htickets ▸ h.unique) ?_ ?_ ?_ ?_ fun tokenHash heq =>
    absurd heq (hused tokenHash)
  · rw [htickets, hlocks]
    exact fun r' id _ hlock => ⟨hlock, fun row hrow _ => hrow⟩
  · rw [htickets]
    exact fun row hrow => ⟨row, hrow, rfl, fun hrow => hrow⟩
  · intro ticket heq
    rw [hlocked] at heq
    cases heq
  · rintro ticket rfl
    cases hlocked

/-- **Every step** keeps a ticket with one request. -/
theorem ticketsSound_redeemStep (h : s.TicketsSound) (e : RedeemEvent) :
    (redeemStep lib settings s e).TicketsSound := by
  have hmove := redeemStep_move lib settings s e
  generalize redeemStep lib settings s e = t at hmove ⊢
  have hsame : ∀ row' ∈ s.tickets, ∃ row ∈ s.tickets, row'.tokenHash = row.tokenHash ∧
      (row.usedAt ≠ none → row'.usedAt ≠ none) := fun row hrow => ⟨row, hrow, rfl, fun h => h⟩
  cases hmove with
  | stay => exact h
  | drop phase hempty huse hlocked =>
    refine h.of_tickets rfl rfl rfl ?_ ?_
    · cases phase with
      | ticketHeld => cases hempty
      | ticketRefused => cases hempty
      | _ => rfl
    · rintro tokenHash rfl
      cases hempty
  | checkToken t password hidle hrow => exact h.of_tickets rfl rfl rfl rfl fun _ heq => nomatch heq
  | checkLogin user consumed hidle hrow =>
    exact h.of_tickets rfl rfl rfl rfl fun _ heq => nomatch heq
  | checkState call saved usedAt hidle hrow =>
    exact h.of_tickets rfl rfl rfl rfl fun _ heq => nomatch heq
  | lockTicket t phase hidle hrow hfree hphase =>
    refine h.next rfl h.unique (fun r' id hne hlock =>
      ⟨(RedeemRun.locks_setLock (Or.inl hfree) hne hlock).2, fun row hrow _ => hrow⟩) hsame ?_ ?_ ?_
    · intro ticket hticket
      have heq : ticket = t := by
        rcases hphase with rfl | ⟨rfl, -⟩ <;> exact (Option.some_inj.1 hticket).symm
      rw [heq]
      exact Function.update_self ..
    · intro ticket hticket
      rcases hphase with rfl | ⟨rfl, hunused⟩
      · cases hticket
      · obtain rfl := RedeemPhase.ticketHeld.inj hticket
        exact ⟨t, hrow, rfl, rfl, hunused⟩
    · intro tokenHash heq
      rcases hphase with rfl | ⟨rfl, -⟩ <;> cases heq
  | exchange call saved usedAt haction hchecked =>
    exact h.of_tickets rfl rfl rfl rfl fun _ heq => nomatch heq
  | answer call saved usedAt d hexchanging hstates =>
    exact h.of_tickets rfl rfl rfl rfl fun _ heq => nomatch heq
  | lose call saved usedAt haction hexchanging =>
    exact h.of_tickets rfl rfl rfl rfl fun _ heq => nomatch heq
  | useToken now t password haction hchecked =>
    exact h.of_tickets rfl rfl rfl rfl fun _ heq => nomatch heq
  | countWrong now user hwrong => exact h.of_tickets rfl rfl rfl rfl fun _ heq => nomatch heq
  | letIn now user consumed haction hchecked =>
    refine h.of_tickets rfl rfl rfl rfl fun tokenHash heq => ?_
    cases consumed <;> cases heq
  | useTicket now t hheld =>
    have hmine := h.locked e.request t (by rw [hheld, RedeemPhase.locked])
    obtain ⟨row, hrow, hid, hhash, hunused⟩ := h.held e.request t hheld
    refine h.next rfl ?_ (fun r' id hne hlock => ?_) (fun row' hrow' => ?_)
      (fun _ heq => nomatch heq)
      (fun _ heq => nomatch heq) ?_
    · have hcolumn : (s.useTicket now t).tickets.map MarketWsTicket.tokenHash =
          s.tickets.map MarketWsTicket.tokenHash :=
        map_of_updateById (f := fun row : MarketWsTicket => { row with usedAt := some now })
          fun _ => rfl
      exact (congrArg List.Nodup hcolumn).mpr h.unique
    · have hlock' : (s.useTicket now t).locks id = some r' := hlock
      obtain ⟨hother, hkept⟩ := RedeemRun.locks_setLock (Or.inr hmine) hne hlock'
      exact ⟨hkept, fun row hrow hrowId => mem_updateById_of_ne hrow (hrowId.trans_ne hother)⟩
    · obtain ⟨found, hfound, rfl⟩ := List.mem_map.1 hrow'
      refine ⟨found, hfound, ?_⟩
      split
      · exact ⟨rfl, fun _ => Option.some_ne_none _⟩
      · exact ⟨rfl, fun h => h⟩
    · rintro tokenHash ⟨⟩
      refine ⟨fun row' hrow' hsame' => ?_, fun r' hr' => h.used r' _ hr' row hrow hhash hunused⟩
      obtain ⟨found, hfound, rfl⟩ := List.mem_map.1 hrow'
      split at hsame'
      · rename_i heq
        rw [if_pos heq]
        exact Option.some_ne_none _
      · rename_i hne
        exact absurd (List.inj_on_of_nodup_map h.unique hfound hrow
          (hsame'.trans hhash.symm) ▸ hid) hne
  | refuseTicket t hheld =>
    refine h.next rfl h.unique (fun r' id hne hlock => ⟨hlock, fun row hrow _ => hrow⟩) hsame ?_
      (fun _ heq => nomatch heq) fun _ heq => nomatch heq
    intro ticket hticket
    obtain rfl : t = ticket := Option.some_inj.1 hticket
    exact h.locked e.request t (by rw [hheld, RedeemPhase.locked])
  | unlock t hlocked =>
    have hmine := h.locked e.request t hlocked
    exact h.next rfl h.unique (fun r' id hne hlock =>
      ⟨(RedeemRun.locks_setLock (Or.inr hmine) hne hlock).2, fun row hrow _ => hrow⟩) hsame
      (fun _ heq => nomatch heq) (fun _ heq => nomatch heq) fun _ heq => nomatch heq

end Tickets

/-! ## Runs -/

/-- **One effect for each credential.**  Over every interleaving of the steps of any
number of requests that is not disturbed, of the requests with one credential at
most one has had its effect; and of those with one ticket at most one streams,
over every interleaving at all. -/
theorem credential_effect_once {lib : BrokerLibraries} (settings : AuthSettings)
    {auth : AuthDatabase} {broker : BrokerDatabase} {tickets : List MarketWsTicket}
    (hunique : RedeemRun.Unique { auth := auth, broker := broker, tickets := tickets })
    {events : List RedeemEvent} {s : RedeemRun}
    (h : Run (Steps (redeemStep lib settings))
      { auth := auth, broker := broker, tickets := tickets } events s) :
    (Run (Guarded Uninterrupted (Steps (redeemStep lib settings)))
      { auth := auth, broker := broker, tickets := tickets } events s → s.EffectOnce) ∧
    ∀ r r' tokenHash, s.requests r = .performed (some (.ticket tokenHash)) →
      s.requests r' = .performed (some (.ticket tokenHash)) → r = r' := by
  constructor
  · intro hguarded
    have hstart : RedeemRun.Sound { auth := auth, broker := broker, tickets := tickets } :=
      ⟨hunique, fun _ => trivial, exclusive_none⟩
    have hsound : s.Sound := hguarded.invariant hstart fun s e t hs ⟨huninterrupted, ht⟩ =>
      ht ▸ sound_redeemStep hs huninterrupted
    exact hsound.exclusive.once
  · have hstart : RedeemRun.TicketsSound
        { auth := auth, broker := broker, tickets := tickets } := by
      refine ⟨hunique.tickets, ?_, ?_, ?_, ?_⟩
      · exact fun _ _ h => nomatch h
      · exact fun _ _ h => nomatch h
      · exact fun _ _ h => nomatch h
      · exact fun _ _ _ h => nomatch h
    have hsound : s.TicketsSound := h.invariant hstart fun s e t hs ht =>
      ht ▸ ticketsSound_redeemStep hs e
    exact hsound.once

/-! ### Two runs -/

def oneTimeLibraries : BrokerLibraries where
  toAuthLibraries := sampleLibraries
  fromIsoformat _ := none

/-- A user with a recovery code and a link to reset the password with. -/
def oneTimeAuth : AuthDatabase where
  users := [{
    id := 1, email := "u@example.com", passwordHash := "$pw", isVerified := true
    mfaEnabled := true, mfaSecretEncrypted := some "key", recoveryCodeHashes := ["#code"] }]
  oneTimeTokens := [{
    id := 2, userId := 1, purpose := .resetPassword, tokenHash := "#link", expiresAt := 100 }]

/-- The user's state at a broker. -/
def oneTimeBroker : BrokerDatabase where
  states := [{ id := 3, userId := 1, broker := .upstox, stateHash := "#state", expiresAt := 100 }]

theorem oneTime_unique :
    RedeemRun.Unique { auth := oneTimeAuth, broker := oneTimeBroker, tickets := [] } := by
  refine ⟨?_, ?_, ?_, ?_⟩
  · exact List.nodup_singleton _
  · exact List.nodup_singleton _
  · exact List.nodup_singleton _
  · exact List.nodup_nil

theorem uninterrupted_of_read {s : RedeemRun} {r : ℕ} {request : Redeem} {now : Time} :
    Uninterrupted s ⟨r, .read request now⟩ where
  token _ _ _ h := nomatch h
  codes _ _ _ _ h := nomatch h
  exchange _ _ _ h := nomatch h
  answer h := by rcases h with h | h <;> cases h

/-- A reset, and the link again. -/
def resetThenAgain : List RedeemEvent := [
  ⟨0, .read (.reset "link" "Correct-Horse-1") 5⟩, ⟨0, .commit 6⟩,
  ⟨1, .read (.reset "link" "Battery-Staple-2") 7⟩]

theorem credential_effect_once_resetThenAgain :
    (resetThenAgain.foldl (redeemStep oneTimeLibraries {})
      { auth := oneTimeAuth, broker := oneTimeBroker, tickets := [] }).EffectOnce := by
  refine (credential_effect_once {} oneTime_unique (run_foldl _ _ resetThenAgain)).1 ?_
  refine .cons ⟨uninterrupted_of_read, rfl⟩ (.cons ⟨⟨?_, ?_, ?_, ?_⟩, rfl⟩
    (.single ⟨uninterrupted_of_read, rfl⟩))
  · intro now t password _ _ row hrow _
    obtain rfl := List.mem_singleton.1 hrow
    rfl
  · exact fun _ _ _ _ _ hchecked => nomatch hchecked
  · exact fun _ _ _ h => nomatch h
  · intro h
    rcases h with h | h <;> cases h

def stateCallback : CallbackCall :=
  { browser := 1, broker := .upstox, state := some "state", code := some "code" }

/-- A recovery code and a link each in two requests that overlap, and a state in
two that follow one another, the first of which fails after its exchange. -/
def usedTwice : List RedeemEvent := [
  ⟨0, .read (.login "u@example.com" "pw" (some "code")) 5⟩,
  ⟨1, .read (.login "u@example.com" "pw" (some "code")) 5⟩, ⟨0, .commit 6⟩, ⟨1, .commit 6⟩,
  ⟨2, .read (.reset "link" "Correct-Horse-1") 7⟩, ⟨3, .read (.reset "link" "Battery-Staple-2") 7⟩,
  ⟨2, .commit 8⟩, ⟨3, .commit 8⟩,
  ⟨4, .read (.callback stateCallback none) 9⟩, ⟨4, .exchange⟩,
  ⟨4, .answered .exception⟩,
  ⟨5, .read (.callback stateCallback none) 10⟩, ⟨5, .exchange⟩]

/-- **Each is used twice.** -/
theorem credentials_used_twice :
    let s := usedTwice.foldl (redeemStep oneTimeLibraries {})
      { auth := oneTimeAuth, broker := oneTimeBroker, tickets := [] }
    ((s.requests 0).use = some (.recoveryCode "u@example.com" "#code", true) ∧
      (s.requests 1).use = some (.recoveryCode "u@example.com" "#code", true)) ∧
    ((s.requests 2).use = some (.oneTime .resetPassword "#link", true) ∧
      (s.requests 3).use = some (.oneTime .resetPassword "#link", true)) ∧
    ((s.requests 4).use = some (.oauthState .upstox "#state", false) ∧
      (s.requests 5).use = some (.oauthState .upstox "#state", false)) ∧ ¬ s.EffectOnce := by
  have hcodes : ((usedTwice.foldl (redeemStep oneTimeLibraries {})
      { auth := oneTimeAuth, broker := oneTimeBroker, tickets := [] }).requests 0).use =
        some (.recoveryCode "u@example.com" "#code", true) ∧
      ((usedTwice.foldl (redeemStep oneTimeLibraries {})
      { auth := oneTimeAuth, broker := oneTimeBroker, tickets := [] }).requests 1).use =
        some (.recoveryCode "u@example.com" "#code", true) := by
    decide +kernel
  refine ⟨hcodes, ?_, ?_, fun honce => ?_⟩
  · decide +kernel
  · decide +kernel
  · exact absurd (honce 0 1 _ _ _ hcodes.1 hcodes.2) (by decide)

end GnkAlgo
