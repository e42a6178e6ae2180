import GnkAlgo.Auth.SessionRuns
import GnkAlgo.Brokers.OAuth
import GnkAlgo.Lib.SingleUse

/-!
# Whose broker account it is

A callback stores the credentials it was given for the user of the state, and not
for anybody the browser knows.  The state is the one of the query where there is
one, and it is not compared with the cookie.

* `BrokerRun.Bound` — the state is in the cookie the browser sent, which it was
  given by a connect of the same user for the same broker;
* `CarriesCookie` — a callback that passes carries no state, or the one in the
  cookie;
* `broker_callback_bound` — over every run whose callbacks do;
* `attacker_state_accepted` — a callback that does not.
-/

namespace GnkAlgo

open Transition SingleUse

/-! ## What is asked -/

/-- The browser of the callback was given the state as its cookie, by a connect of
the user for the broker, and the state was neither used nor over. -/
structure BrokerRun.Bound (lib : BrokerLibraries) (s : BrokerRun) (call : CallbackCall)
    (cookie : Option String) (saved : OAuthState) (usedAt : Time) : Prop where
  given : ∃ raw r c, cookie = some raw ∧ s.requests r = .cookieSet c raw ∧
    c.browser = call.browser ∧ c.principal.userId = saved.userId ∧ c.broker = saved.broker ∧
    saved.stateHash = lib.hashToken raw
  broker : saved.broker = call.broker
  unused : saved.usedAt = none
  unexpired : usedAt < saved.expiresAt

/-- A callback that passes the check carries no state in its query, or the one of
the cookie it is sent with. -/
def CarriesCookie (lib : BrokerLibraries) (s : BrokerRun) (e : BrokerEvent) : Prop :=
  ∀ now call cookie saved, e.action = .check now → s.requests e.request = .sent call cookie →
    checkCallback lib now s.db call cookie = .ok saved →
    given call.state = none ∨ given call.state = given cookie

/-- A callback that passes the check does so while no other callback that passed
it with the same state awaits the broker. -/
def NotInFlight (lib : BrokerLibraries) (s : BrokerRun) (e : BrokerEvent) : Prop :=
  ∀ now call cookie saved, e.action = .check now → s.requests e.request = .sent call cookie →
    checkCallback lib now s.db call cookie = .ok saved →
    ∀ r call' cookie' saved' usedAt, s.requests r = .exchanging call' cookie' saved' usedAt →
      saved'.id ≠ saved.id

/-! ## Whose cookie it is -/

/-- States of runs whose callbacks carry their cookie. -/
structure BrokerRun.Sound (lib : BrokerLibraries) (s : BrokerRun) : Prop where
  drawn : ∀ r call raw, (s.requests r).drew = some (call, raw) →
    ∃ n < s.db.drawn, raw = lib.secretAt n
  distinct : ∀ r r' call call' raw, (s.requests r).drew = some (call, raw) →
    (s.requests r').drew = some (call', raw) → r = r'
  states : ∀ o ∈ s.db.states, ∃ r call raw, (s.requests r).issued = some (call, raw) ∧
    o.stateHash = lib.hashToken raw ∧ o.userId = call.principal.userId ∧ o.broker = call.broker
  jars : ∀ b cookie, s.jars b = some cookie → ∃ r call,
    s.requests r = .cookieSet call cookie.value ∧ call.browser = b
  carried : ∀ r call raw, (s.requests r).callback = some (call, some raw) → ∃ r' c,
    s.requests r' = .cookieSet c raw ∧ c.browser = call.browser
  bound : ∀ r call cookie saved usedAt,
    (s.requests r).passed = some (call, cookie, saved, usedAt) →
    s.Bound lib call cookie saved usedAt

section Sound

variable {lib : BrokerLibraries} {s t : BrokerRun} {r : ℕ} {phase : BrokerPhase}

theorem drew_of_issued {call : ConnectCall} {raw : String} (h : phase.issued = some (call, raw)) :
    phase.drew = some (call, raw) := by
  cases phase with
  | connected => exact h
  | cookieSet => exact h
  | _ => cases h

theorem BrokerRun.Bound.mono {call : CallbackCall} {cookie : Option String} {saved : OAuthState}
    {usedAt : Time} (h : s.Bound lib call cookie saved usedAt)
    (hheld : ∀ q c raw, s.requests q = .cookieSet c raw → t.requests q = .cookieSet c raw) :
    t.Bound lib call cookie saved usedAt where
  given := by
    obtain ⟨raw, q, c, hcookie, hq, hrest⟩ := h.given
    exact ⟨raw, q, c, hcookie, hheld q c raw hq, hrest⟩
  broker := h.broker
  unused := h.unused
  unexpired := h.unexpired

theorem sound_start (lib : BrokerLibraries) : ({} : BrokerRun).Sound lib where
  drawn _ _ _ h := nomatch h
  distinct _ _ _ _ _ h := nomatch h
  states _ h := nomatch h
  jars _ _ h := nomatch h
  carried _ _ _ h := nomatch h
  bound _ _ _ _ _ h := nomatch h

/-- What a step has to show for the request that takes it. -/
theorem BrokerRun.Sound.next (h : s.Sound lib) (hsecret : Function.Injective lib.secretAt)
    (ht : t.requests = Function.update s.requests r phase)
    (hgrow : s.db.drawn ≤ t.db.drawn)
    (hissued : ∀ x, (s.requests r).issued = some x → phase.issued = some x)
    (hheld : ∀ c raw, s.requests r = .cookieSet c raw → phase = .cookieSet c raw)
    (hdrew : ∀ call raw, phase.drew = some (call, raw) →
      (s.requests r).drew = some (call, raw) ∨
        raw = lib.secretAt s.db.drawn ∧ s.db.drawn < t.db.drawn)
    (hstates : ∀ o ∈ t.db.states,
      (∃ o' ∈ s.db.states, o.stateHash = o'.stateHash ∧ o.userId = o'.userId ∧
        o.broker = o'.broker) ∨
      ∃ call raw, phase.issued = some (call, raw) ∧ o.stateHash = lib.hashToken raw ∧
        o.userId = call.principal.userId ∧ o.broker = call.broker)
    (hjars : ∀ b cookie, t.jars b = some cookie → s.jars b = some cookie ∨
      ∃ call, phase = .cookieSet call cookie.value ∧ call.browser = b)
    (hcallback : ∀ call cookie, phase.callback = some (call, cookie) →
      (s.requests r).callback = some (call, cookie) ∨ ∃ now, cookie = s.cookie call now)
    (hpassed : ∀ call cookie saved usedAt, phase.passed = some (call, cookie, saved, usedAt) →
      (s.requests r).passed = some (call, cookie, saved, usedAt) ∨
        s.Bound lib call cookie saved usedAt) : t.Sound lib := by
  have hrequest : ∀ q, t.requests q = if q = r then phase else s.requests q := fun q => by
    rw [ht, Function.update_apply]
  have hself : t.requests r = phase := by rw [hrequest, if_pos rfl]
  have hkept : ∀ q x, (s.requests q).issued = some x → (t.requests q).issued = some x := by
    intro q x hq
    rw [hrequest]
    split
    · rename_i heq
      exact hissued x (heq ▸ hq)
    · exact hq
  have hcookie : ∀ q c raw, s.requests q = .cookieSet c raw → t.requests q = .cookieSet c raw := by
    intro q c raw hq
    rw [hrequest]
    split
    · rename_i heq
      exact hheld c raw (heq ▸ hq)
    · exact hq
  -- a state is with the request that had it before, or was drawn now
  have hold : ∀ q call raw, (t.requests q).drew = some (call, raw) →
      (s.requests q).drew = some (call, raw) ∨
        q = r ∧ raw = lib.secretAt s.db.drawn ∧ s.db.drawn < t.db.drawn := by
    intro q call raw hq
    rw [hrequest] at hq
    split at hq
    · rename_i heq
      exact (heq ▸ hdrew call raw hq).imp_right fun hnew => ⟨heq, hnew⟩
    · exact Or.inl hq
  have hnew : ∀ q call, (s.requests q).drew ≠ some (call, lib.secretAt s.db.drawn) := by
    intro q call hq
    obtain ⟨n, hlt, heq⟩ := h.drawn q call _ hq
    exact hlt.ne (hsecret heq).symm
  refine ⟨?_, ?_, ?_, ?_, ?_, ?_⟩
  · intro q call raw hq
    rcases hold q call raw hq with hq | ⟨-, hraw, hlt⟩
    · obtain ⟨n, hlt, heq⟩ := h.drawn q call raw hq
      exact ⟨n, hlt.trans_le hgrow, heq⟩
    · exact ⟨_, hlt, hraw⟩
  · intro q q' call call' raw hq hq'
    rcases hold q call raw hq with hq | ⟨heq, hraw, -⟩
    · rcases hold q' call' raw hq' with hq' | ⟨-, hraw, -⟩
      · exact h.distinct q q' call call' raw hq hq'
      · exact absurd (hraw ▸ hq) (hnew q call)
    · rcases hold q' call' raw hq' with hq' | ⟨heq', -⟩
      · exact absurd (hraw ▸ hq') (hnew q' call')
      · rw [heq, heq']
  · intro o ho
    rcases hstates o ho with ⟨o', ho', hhash, huser, hbroker⟩ | ⟨call, raw, hphase, hrest⟩
    · obtain ⟨q, call, raw, hq, hhash', huser', hbroker'⟩ := h.states o' ho'
      exact ⟨q, call, raw, hkept q _ hq, hhash.trans hhash', huser.trans huser',
        hbroker.trans hbroker'⟩
    · exact ⟨r, call, raw, by rw [hself, hphase], hrest⟩
  · intro b cookie hb
    rcases hjars b cookie hb with hb | ⟨call, hphase, hbrowser⟩
    · obtain ⟨q, call, hq, hbrowser⟩ := h.jars b cookie hb
      exact ⟨q, call, hcookie q call _ hq, hbrowser⟩
    · exact ⟨r, call, by rw [hself, hphase], hbrowser⟩
  · intro q call raw hq
    have hbefore : (s.requests q).callback = some (call, some raw) ∨
        ∃ now, some raw = s.cookie call now := by
      rw [hrequest] at hq
      split at hq
      · rename_i heq
        exact heq ▸ hcallback call (some raw) hq
      · exact Or.inl hq
    rcases hbefore with hq | ⟨now, hraw⟩
    · obtain ⟨q', c, hq', hbrowser⟩ := h.carried q call raw hq
      exact ⟨q', c, hcookie q' c raw hq', hbrowser⟩
    · unfold BrokerRun.cookie at hraw
      split at hraw
      · obtain ⟨found, hfound, hvalue⟩ := Option.map_eq_some_iff.1 hraw.symm
        obtain ⟨q', c, hq', hbrowser⟩ := h.jars _ found (Option.mem_filter_iff.1 hfound).1
        exact ⟨q', c, hcookie q' c raw (hvalue ▸ hq'), hbrowser⟩
      · cases hraw
  · intro q call cookie saved usedAt hq
    refine BrokerRun.Bound.mono (s := s) ?_ hcookie
    rw [hrequest] at hq
    split at hq
    · rcases hpassed call cookie saved usedAt hq with hq | hbound
      · exact h.bound r call cookie saved usedAt hq
      · exact hbound
    · exact h.bound q call cookie saved usedAt hq

/-- **The check**: a callback that carries its cookie is bound to its browser. -/
theorem BrokerRun.Sound.pass (h : s.Sound lib) (hhash : Function.Injective lib.hashToken)
    {call : CallbackCall} {cookie : Option String} {saved : OAuthState} {now : Time}
    (hsent : s.requests r = .sent call cookie)
    (hsaved : checkCallback lib now s.db call cookie = .ok saved)
    (hcarries : given call.state = none ∨ given call.state = given cookie) :
    s.Bound lib call cookie saved now := by
  obtain ⟨raw, hraw, hmem, hdigest, hbroker, hunused, hunexpired⟩ := checkCallback_ok hsaved
  have hgiven : given cookie = some raw := by
    unfold CallbackCall.rawState at hraw
    rcases hcarries with hnone | hsame
    · rwa [hnone, Option.none_or] at hraw
    · rwa [hsame, Option.or_self] at hraw
  have hcookie : cookie = some raw := (Option.mem_filter_iff.1 hgiven).1
  obtain ⟨q, c, hq, hbrowser⟩ := h.carried r call raw (by rw [hsent, hcookie]; rfl)
  obtain ⟨q', c', raw', hq', hdigest', huser, hbroker'⟩ := h.states saved hmem
  obtain rfl : raw = raw' := hhash (hdigest.symm.trans hdigest')
  have hdrew : (s.requests q).drew = some (c, raw) := by rw [hq]; rfl
  have hdrew' := drew_of_issued hq'
  -- one request only has drawn the state of the row
  obtain rfl := h.distinct q q' c c' raw hdrew hdrew'
  obtain rfl : c = c' := (Prod.mk.inj (Option.some_inj.1 (hdrew.symm.trans hdrew'))).1
  exact ⟨⟨raw, q, c, hcookie, hq, hbrowser, huser.symm, hbroker'.symm, hdigest⟩, hbroker, hunused,
    hunexpired⟩

theorem mem_markUsed {d : BrokerDatabase} {saved o : OAuthState} {usedAt : Time}
    (h : o ∈ (markUsed d saved usedAt).states) : ∃ o' ∈ d.states, o.stateHash = o'.stateHash ∧
      o.userId = o'.userId ∧ o.broker = o'.broker := by
  obtain ⟨o', ho', rfl⟩ := List.mem_map.1 h
  refine ⟨o', ho', ?_⟩
  split
  · exact ⟨rfl, rfl, rfl⟩
  · exact ⟨rfl, rfl, rfl⟩

/-- **One step** of a run whose callbacks carry their cookie. -/
theorem sound_brokerStep (h : s.Sound lib) (hhash : Function.Injective lib.hashToken)
    (hsecret : Function.Injective lib.secretAt) {e : BrokerEvent}
    (hcarries : CarriesCookie lib s e) :
    (brokerStep lib s e).Sound lib := by
  have hmove := brokerStep_move lib s e
  generalize brokerStep lib s e = t at hmove ⊢
  have hsame : ∀ o ∈ s.db.states, ∃ o' ∈ s.db.states, o.stateHash = o'.stateHash ∧
      o.userId = o'.userId ∧ o.broker = o'.broker := fun o ho => ⟨o, ho, rfl, rfl, rfl⟩
  cases hmove with
  | stay => exact h
  | start call hidle =>
    refine h.next hsecret rfl (Nat.le_succ _) ?_ ?_ ?_ (fun o ho => Or.inl (hsame o ho))
      (fun b cookie hb => Or.inl hb) (fun _ _ hq => nomatch hq) fun _ _ _ _ hq => nomatch hq
    · intro x hx; rw [hidle] at hx; cases hx
    · intro c raw hx; rw [hidle] at hx; cases hx
    · rintro _ _ ⟨⟩
      exact Or.inr ⟨rfl, Nat.lt_succ_self _⟩
  | issue call raw state hconnecting huser hbroker hhash' hid =>
    refine h.next hsecret rfl le_rfl ?_ ?_ ?_ ?_ (fun b cookie hb => Or.inl hb)
      (fun _ _ hq => nomatch hq) fun _ _ _ _ hq => nomatch hq
    · intro x hx; rw [hconnecting] at hx; cases hx
    · intro c raw hx; rw [hconnecting] at hx; cases hx
    · rintro _ _ ⟨⟩
      exact Or.inl (by rw [hconnecting]; rfl)
    · intro o ho
      rcases List.mem_append.1 ho with ho | ho
      · exact Or.inl (hsame o ho)
      · obtain rfl := List.mem_singleton.1 ho
        exact Or.inr ⟨call, raw, rfl, hhash', huser, hbroker⟩
  | setCookie call raw expiresAt hconnected =>
    refine h.next hsecret rfl le_rfl ?_ ?_ ?_ (fun o ho => Or.inl (hsame o ho)) ?_
      (fun _ _ hq => nomatch hq) fun _ _ _ _ hq => nomatch hq
    · intro x hx; rw [hconnected] at hx; exact hx
    · intro c raw hx; rw [hconnected] at hx; cases hx
    · rintro _ _ ⟨⟩
      exact Or.inl (by rw [hconnected]; rfl)
    · intro b cookie hb
      rw [BrokerRun.become, BrokerRun.setJar] at hb
      dsimp only at hb
      rw [Function.update_apply] at hb
      split at hb
      · rename_i hbrowser
        cases hb
        exact Or.inr ⟨call, rfl, hbrowser.symm⟩
      · exact Or.inl hb
  | send call now hidle =>
    refine h.next hsecret rfl le_rfl ?_ ?_ (fun _ _ hq => nomatch hq)
      (fun o ho => Or.inl (hsame o ho)) (fun b cookie hb => Or.inl hb) ?_
      fun _ _ _ _ hq => nomatch hq
    · intro x hx; rw [hidle] at hx; cases hx
    · intro c raw hx; rw [hidle] at hx; cases hx
    · rintro _ _ ⟨⟩
      exact Or.inr ⟨now, rfl⟩
  | pass call cookie saved now hcheck hsent hsaved =>
    refine h.next hsecret rfl le_rfl ?_ ?_ (fun _ _ hq => nomatch hq)
      (fun o ho => Or.inl (hsame o ho)) (fun b cookie hb => Or.inl hb) ?_ ?_
    · intro x hx; rw [hsent] at hx; cases hx
    · intro c raw hx; rw [hsent] at hx; cases hx
    · rintro _ _ ⟨⟩
      exact Or.inl (by rw [hsent]; rfl)
    · rintro _ _ _ _ ⟨⟩
      exact Or.inr (h.pass hhash hsent hsaved (hcarries now call cookie saved hcheck hsent hsaved))
  | store call cookie saved usedAt c hexchanging =>
    obtain ⟨hstates, hdrawn, -⟩ := storeConnection_states lib (markUsed s.db saved usedAt) saved
      call.broker c
    refine h.next hsecret rfl hdrawn.ge ?_ ?_ (fun _ _ hq => nomatch hq)
      (fun o ho => Or.inl (mem_markUsed (hstates ▸ ho))) (fun b cookie hb => Or.inl hb) ?_ ?_
    · intro x hx; rw [hexchanging] at hx; cases hx
    · intro c raw hx; rw [hexchanging] at hx; cases hx
    · rintro _ _ ⟨⟩
      exact Or.inl (by rw [hexchanging]; rfl)
    · rintro _ _ _ _ ⟨⟩
      exact Or.inl (by rw [hexchanging]; rfl)
  | finish call cookie saved usedAt hstored =>
    refine h.next hsecret rfl le_rfl ?_ ?_ (fun _ _ hq => nomatch hq)
      (fun o ho => Or.inl (hsame o ho))
      (fun b found hb => Or.inl (setJar_none s call.browser b found hb)) ?_ ?_
    · intro x hx; rw [hstored] at hx; cases hx
    · intro c raw hx; rw [hstored] at hx; cases hx
    · rintro _ _ ⟨⟩
      exact Or.inl (by rw [hstored]; rfl)
    · rintro _ _ _ _ ⟨⟩
      exact Or.inl (by rw [hstored]; rfl)
  | spend call cookie saved usedAt error hexchanging =>
    refine h.next hsecret rfl le_rfl ?_ ?_ (fun _ _ hq => nomatch hq)
      (fun o ho => Or.inl (mem_markUsed ho)) (fun b cookie hb => Or.inl hb)
      (fun _ _ hq => nomatch hq) fun _ _ _ _ hq => nomatch hq
    · intro x hx; rw [hexchanging] at hx; cases hx
    · intro c raw hx; rw [hexchanging] at hx; cases hx
  | drop phase jars hdrew hcallback hpassed hissued haccepted hjars =>
    refine h.next hsecret rfl le_rfl ?_ ?_ ?_ (fun o ho => Or.inl (hsame o ho))
      (fun b cookie hb => Or.inl (hjars b cookie hb)) ?_ ?_
    · intro x hx; rw [hissued] at hx; cases hx
    · intro c raw hx; rw [hx] at hissued; cases hissued
    · intro call raw hq; rw [hdrew] at hq; cases hq
    · intro call cookie hq; rw [hcallback] at hq; cases hq
    · intro call cookie saved usedAt hq; rw [hpassed] at hq; cases hq

/-! ## Who has stored what -/

/-- A callback has stored credentials for this user and broker. -/
def BrokerRun.Stored (s : BrokerRun) (userId : Uuid) (broker : BrokerName) : Prop :=
  ∃ r call cookie saved usedAt, (s.requests r).accepted = some (call, cookie, saved, usedAt) ∧
    saved.userId = userId ∧ saved.broker = broker

theorem mem_storeConnection {d : BrokerDatabase} {saved : OAuthState} {broker : BrokerName}
    {credentials : ExchangedCredentials} {c : BrokerConnection}
    (h : c ∈ (storeConnection lib d saved broker credentials).connections) :
    c ∈ d.connections ∨ c.userId = saved.userId ∧ c.broker = broker := by
  unfold storeConnection at h
  split at h
  rename_i d' existing heq
  have hexisting : existing.userId = saved.userId ∧ existing.broker = broker ∧
      ∀ c' ∈ d'.connections, c' ∈ d.connections ∨ c' = existing := by
    split at heq
    · rename_i found hfound
      cases heq
      have hfind := List.find?_some hfound
      simp only [Bool.decide_and, Bool.and_eq_true, decide_eq_true_eq] at hfind
      exact ⟨hfind.1, hfind.2, fun c' hc' => Or.inl hc'⟩
    · cases heq
      exact ⟨rfl, rfl, fun c' hc' => (List.mem_append.1 hc').imp_right List.mem_singleton.1⟩
  obtain ⟨huser, hbroker, hmem⟩ := hexisting
  rcases Rows.mem_replaceBy h with rfl | ⟨hc, -⟩
  · exact Or.inr ⟨huser, hbroker⟩
  · rcases hmem c hc with hc | rfl
    · exact Or.inl hc
    · exact Or.inr ⟨huser, hbroker⟩

/-- A step takes nothing back that was stored. -/
theorem accepted_brokerStep (s : BrokerRun) (e : BrokerEvent) {q : ℕ}
    {x : CallbackCall × Option String × OAuthState × Time} (h : (s.requests q).accepted = some x) :
    ((brokerStep lib s e).requests q).accepted = some x := by
  have hmove := brokerStep_move lib s e
  generalize brokerStep lib s e = t at hmove ⊢
  have hkeep : ∀ phase : BrokerPhase,
      (∀ x, (s.requests e.request).accepted = some x → phase.accepted = some x) →
      (Function.update s.requests e.request phase q).accepted = some x := by
    intro phase hphase
    rw [Function.update_apply]
    split
    · rename_i heq
      exact hphase x (heq ▸ h)
    · exact h
  cases hmove with
  | stay => exact h
  | start call hidle => exact hkeep _ fun x hx => by rw [hidle] at hx; cases hx
  | issue call raw state hconnecting =>
    exact hkeep _ fun x hx => by rw [hconnecting] at hx; cases hx
  | setCookie call raw expiresAt hconnected =>
    exact hkeep _ fun x hx => by rw [hconnected] at hx; cases hx
  | send call now hidle => exact hkeep _ fun x hx => by rw [hidle] at hx; cases hx
  | pass call cookie saved now hcheck hsent =>
    exact hkeep _ fun x hx => by rw [hsent] at hx; cases hx
  | store call cookie saved usedAt c hexchanging =>
    exact hkeep _ fun x hx => by rw [hexchanging] at hx; cases hx
  | finish call cookie saved usedAt hstored =>
    exact hkeep _ fun x hx => by rw [hstored] at hx; exact hx
  | spend call cookie saved usedAt error hexchanging =>
    exact hkeep _ fun x hx => by rw [hexchanging] at hx; cases hx
  | drop phase jars hdrew hcallback hpassed hissued haccepted =>
    exact hkeep _ fun x hx => by rw [haccepted] at hx; cases hx

/-- Every connection was stored by a callback. -/
theorem stored_brokerStep (h : s.Sound lib)
    (hstored : ∀ c ∈ s.db.connections, s.Stored c.userId c.broker) (e : BrokerEvent) :
    ∀ c ∈ (brokerStep lib s e).db.connections,
      (brokerStep lib s e).Stored c.userId c.broker := by
  have hmono : ∀ userId broker, s.Stored userId broker →
      (brokerStep lib s e).Stored userId broker := by
    rintro userId broker ⟨q, call, cookie, saved, usedAt, hq, hrest⟩
    exact ⟨q, call, cookie, saved, usedAt, accepted_brokerStep s e hq, hrest⟩
  have hmove := brokerStep_move lib s e
  generalize brokerStep lib s e = t at hmono hmove ⊢
  cases hmove with
  | store call cookie saved usedAt credentials hexchanging =>
    intro c hc
    rcases mem_storeConnection hc with hc | ⟨huser, hbroker⟩
    · exact hmono _ _ (hstored c hc)
    · have hbound := h.bound e.request call cookie saved usedAt (by rw [hexchanging]; rfl)
      refine ⟨e.request, call, cookie, saved, usedAt, ?_, huser.symm,
        hbound.broker.trans hbroker.symm⟩
      rw [BrokerRun.become_requests_self, BrokerPhase.accepted]
  | stay => exact fun c hc => hmono _ _ (hstored c hc)
  | start => exact fun c hc => hmono _ _ (hstored c hc)
  | issue => exact fun c hc => hmono _ _ (hstored c hc)
  | setCookie => exact fun c hc => hmono _ _ (hstored c hc)
  | send => exact fun c hc => hmono _ _ (hstored c hc)
  | pass => exact fun c hc => hmono _ _ (hstored c hc)
  | finish => exact fun c hc => hmono _ _ (hstored c hc)
  | spend => exact fun c hc => hmono _ _ (hstored c hc)
  | drop => exact fun c hc => hmono _ _ (hstored c hc)

/-! ## How often -/

/-- The state a callback holds, and whether it has stored credentials with it. -/
def BrokerPhase.use : BrokerPhase → Option (Uuid × Bool)
  | .exchanging _ _ saved _ => some (saved.id, false)
  | .stored _ _ saved _ => some (saved.id, true)
  | .finished _ _ saved _ => some (saved.id, true)
  | _ => none

/-- The row of the state is used. -/
def BrokerDatabase.Spent (d : BrokerDatabase) (id : Uuid) : Prop :=
  id < d.nextUuid ∧ ∀ o ∈ d.states, o.id = id → o.usedAt ≠ none

/-- No state is with two callbacks, and none that one still has to store with is
used. -/
structure BrokerRun.Once (s : BrokerRun) : Prop where
  ids : ∀ o ∈ s.db.states, o.id < s.db.nextUuid
  held : ∀ r id b, (s.requests r).use = some (id, b) → id < s.db.nextUuid
  exclusive : Exclusive s.db.Spent fun r => (s.requests r).use
  unspent : ∀ r id, (s.requests r).use = some (id, false) → ¬ s.db.Spent id

theorem use_of_passed {phase : BrokerPhase} (h : phase.passed = none) : phase.use = none := by
  cases phase with
  | exchanging => cases h
  | stored => cases h
  | finished => cases h
  | _ => rfl

theorem use_of_accepted {phase : BrokerPhase} {call : CallbackCall} {cookie : Option String}
    {saved : OAuthState} {usedAt : Time}
    (h : phase.accepted = some (call, cookie, saved, usedAt)) :
    phase.use = some (saved.id, true) := by
  cases phase with
  | stored => cases h; rfl
  | finished => cases h; rfl
  | _ => cases h

theorem use_update (requests : ℕ → BrokerPhase) (r : ℕ) (phase : BrokerPhase) :
    (fun q => (Function.update requests r phase q).use) =
      Function.update (fun q => (requests q).use) r phase.use := by
  funext q
  rw [Function.update_apply, Function.update_apply]
  split
  · rfl
  · rfl

theorem spent_markUsed {d : BrokerDatabase} {saved : OAuthState} {usedAt : Time} {id : Uuid}
    (h : d.Spent id ∨ id = saved.id ∧ id < d.nextUuid) : (markUsed d saved usedAt).Spent id := by
  refine ⟨h.elim And.left And.right, fun o ho hid => ?_⟩
  obtain ⟨o', ho', rfl⟩ := List.mem_map.1 ho
  split
  · exact Option.some_ne_none _
  · rename_i hne
    rw [if_neg hne] at hid
    rcases h with hspent | ⟨heq, -⟩
    · exact hspent.2 o' ho' hid
    · exact absurd (hid.trans heq) hne

theorem of_spent_markUsed {d : BrokerDatabase} {saved : OAuthState} {usedAt : Time} {id : Uuid}
    (h : (markUsed d saved usedAt).Spent id) : d.Spent id ∨ id = saved.id := by
  by_cases hsaved : id = saved.id
  · exact Or.inr hsaved
  · refine Or.inl ⟨h.1, fun o ho hid => h.2 o ?_ hid⟩
    exact List.mem_map.2 ⟨o, ho, if_neg fun heq => hsaved (hid.symm.trans heq)⟩

/-- What a step has to show for the request that takes it. -/
theorem BrokerRun.Once.next (h : s.Once) (ht : t.requests = Function.update s.requests r phase)
    (hgrow : s.db.nextUuid ≤ t.db.nextUuid) (hids : ∀ o ∈ t.db.states, o.id < t.db.nextUuid)
    (hheld : ∀ id b, phase.use = some (id, b) → id < t.db.nextUuid)
    (hexclusive : Exclusive t.db.Spent (Function.update (fun q => (s.requests q).use) r phase.use))
    (hspent : ∀ id < s.db.nextUuid, t.db.Spent id →
      s.db.Spent id ∨ (s.requests r).use = some (id, false))
    (hunspent : ∀ id, phase.use = some (id, false) → ¬ t.db.Spent id) : t.Once := by
  refine ⟨hids, fun q id b hq => ?_, ?_, fun q id hq hused => ?_⟩
  · rw [ht, Function.update_apply] at hq
    split at hq
    · exact hheld id b hq
    · exact (h.held q id b hq).trans_le hgrow
  · rw [ht, use_update]
    exact hexclusive
  · rw [ht, Function.update_apply] at hq
    split at hq
    · exact hunspent id hq hused
    · rename_i hne
      rcases hspent id (h.held q id false hq) hused with hold | hr
      · exact h.unspent q id hq hold
      · exact hne (h.exclusive.once q r id false false hq hr)

theorem mem_markUsed_id {d : BrokerDatabase} {saved o : OAuthState} {usedAt : Time}
    (h : o ∈ (markUsed d saved usedAt).states) : ∃ o' ∈ d.states, o.id = o'.id := by
  obtain ⟨o', ho', rfl⟩ := List.mem_map.1 h
  refine ⟨o', ho', ?_⟩
  split
  · rfl
  · rfl

/-- **One step** of a run without overlaps. -/
theorem once_brokerStep (h : s.Once) {e : BrokerEvent} (hflight : NotInFlight lib s e) :
    (brokerStep lib s e).Once := by
  have hmove := brokerStep_move lib s e
  generalize brokerStep lib s e = t at hmove ⊢
  cases hmove with
  | stay => exact h
  | start call hidle =>
    exact h.next rfl le_rfl h.ids (fun _ _ hq => nomatch hq) (h.exclusive.drop _)
      (fun _ _ hspent => Or.inl hspent) fun _ hq => nomatch hq
  | issue call raw state hconnecting huser hbroker hhash hid =>
    refine h.next rfl (Nat.le_succ _) ?_ (fun _ _ hq => nomatch hq)
      ((h.exclusive.drop _).mono fun id hspent => ⟨hspent.1.trans (Nat.lt_succ_self _), ?_⟩)
      (fun id hlt hspent => Or.inl ⟨hlt, fun o ho => hspent.2 o (List.mem_append_left _ ho)⟩)
      fun _ hq => nomatch hq
    · intro o ho
      rcases List.mem_append.1 ho with ho | ho
      · exact (h.ids o ho).trans (Nat.lt_succ_self _)
      · obtain rfl := List.mem_singleton.1 ho
        exact hid ▸ Nat.lt_succ_self _
    · intro o ho heq
      rcases List.mem_append.1 ho with ho | ho
      · exact hspent.2 o ho heq
      · obtain rfl := List.mem_singleton.1 ho
        exact absurd (heq.symm.trans hid) hspent.1.ne
  | setCookie call raw expiresAt hconnected =>
    exact h.next rfl le_rfl h.ids (fun _ _ hq => nomatch hq) (h.exclusive.drop _)
      (fun _ _ hspent => Or.inl hspent) fun _ hq => nomatch hq
  | send call now hidle =>
    exact h.next rfl le_rfl h.ids (fun _ _ hq => nomatch hq) (h.exclusive.drop _)
      (fun _ _ hspent => Or.inl hspent) fun _ hq => nomatch hq
  | pass call cookie saved now hcheck hsent hsaved =>
    obtain ⟨raw, -, hmem, -, -, hunused, -⟩ := checkCallback_ok hsaved
    have hunspent : ¬ s.db.Spent saved.id := fun hspent => hspent.2 saved hmem rfl hunused
    refine h.next rfl le_rfl h.ids ?_ (h.exclusive.hold hunspent fun q hq => ?_)
      (fun _ _ hspent => Or.inl hspent) ?_
    · rintro _ _ ⟨⟩
      exact h.ids saved hmem
    · have hother := hflight now call cookie saved hcheck hsent hsaved q
      cases hphase : s.requests q with
      | exchanging call' cookie' saved' usedAt =>
        rw [hphase] at hq
        obtain heq := (Prod.mk.inj (Option.some_inj.1 hq)).1
        exact hother call' cookie' saved' usedAt hphase heq
      | _ => simp [hphase, BrokerPhase.use] at hq
    · rintro _ ⟨⟩
      exact hunspent
  | store call cookie saved usedAt c hexchanging =>
    have huse : (s.requests e.request).use = some (saved.id, false) := by rw [hexchanging]; rfl
    have hlt := h.held _ _ _ huse
    obtain ⟨hstates, -, hgrow⟩ := storeConnection_states lib (markUsed s.db saved usedAt) saved
      call.broker c
    have hkept : ∀ id, (markUsed s.db saved usedAt).Spent id →
        (storeConnection lib (markUsed s.db saved usedAt) saved call.broker c).Spent id :=
      fun id hspent => ⟨hspent.1.trans_le hgrow, hstates ▸ hspent.2⟩
    refine h.next rfl hgrow ?_ ?_ (((h.exclusive.mono fun id hspent =>
      spent_markUsed (Or.inl hspent)).settle huse (spent_markUsed (Or.inr ⟨rfl, hlt⟩))).mono hkept)
      (fun id hold hspent => ?_) fun _ hq => nomatch hq
    · intro o ho
      obtain ⟨o', ho', hid⟩ := mem_markUsed_id (hstates ▸ ho)
      exact hid ▸ (h.ids o' ho').trans_le hgrow
    · rintro _ _ ⟨⟩
      exact hlt.trans_le hgrow
    · have hmarked : (markUsed s.db saved usedAt).Spent id := ⟨hold, hstates ▸ hspent.2⟩
      exact (of_spent_markUsed hmarked).imp_right fun heq : id = saved.id => heq ▸ huse
  | finish call cookie saved usedAt hstored =>
    have huse : (s.requests e.request).use = some (saved.id, true) := by rw [hstored]; rfl
    refine h.next rfl le_rfl h.ids ?_ ?_ (fun _ _ hspent => Or.inl hspent) fun _ hq => nomatch hq
    · rintro _ _ ⟨⟩
      exact h.held _ _ _ huse
    · rw [BrokerPhase.use, ← huse, Function.update_eq_self]
      exact h.exclusive
  | spend call cookie saved usedAt error hexchanging =>
    have huse : (s.requests e.request).use = some (saved.id, false) := by rw [hexchanging]; rfl
    refine h.next rfl le_rfl ?_ (fun _ _ hq => nomatch hq)
      ((h.exclusive.drop _).mono fun id hspent => spent_markUsed (Or.inl hspent))
      (fun id _ hspent => (of_spent_markUsed hspent).imp_right
        fun heq : id = saved.id => heq ▸ huse) fun _ hq => nomatch hq
    intro o ho
    obtain ⟨o', ho', hid⟩ := mem_markUsed_id ho
    exact hid ▸ h.ids o' ho'
  | drop phase jars hdrew hcallback hpassed =>
    refine h.next rfl le_rfl h.ids ?_ ?_ (fun _ _ hspent => Or.inl hspent) ?_
    · intro id b hq
      rw [use_of_passed hpassed] at hq
      cases hq
    · rw [use_of_passed hpassed]
      exact h.exclusive.drop _
    · intro id hq
      rw [use_of_passed hpassed] at hq
      cases hq

/-- A step that stores credentials is that of a callback that awaited the broker. -/
theorem exchanging_of_accepted {e : BrokerEvent} {call : CallbackCall} {cookie : Option String}
    {saved : OAuthState} {usedAt : Time} (hnot : (s.requests r).accepted = none)
    (h : ((brokerStep lib s e).requests r).accepted = some (call, cookie, saved, usedAt)) :
    s.requests r = .exchanging call cookie saved usedAt := by
  have hmove := brokerStep_move lib s e
  generalize brokerStep lib s e = t at hmove h
  have hnow : ∀ phase : BrokerPhase, (Function.update s.requests e.request phase r).accepted =
      some (call, cookie, saved, usedAt) →
      r = e.request ∧ phase.accepted = some (call, cookie, saved, usedAt) := by
    intro phase hphase
    rw [Function.update_apply] at hphase
    split at hphase
    · rename_i heq
      exact ⟨heq, hphase⟩
    · rw [hnot] at hphase
      cases hphase
  cases hmove with
  | stay => rw [hnot] at h; cases h
  | start => cases (hnow _ h).2
  | issue => cases (hnow _ h).2
  | setCookie => cases (hnow _ h).2
  | send => cases (hnow _ h).2
  | pass => cases (hnow _ h).2
  | store call' cookie' saved' usedAt' c hexchanging =>
    obtain ⟨rfl, haccepted⟩ := hnow _ h
    cases haccepted
    exact hexchanging
  | finish call' cookie' saved' usedAt' hstored =>
    obtain ⟨rfl, -⟩ := hnow _ h
    rw [hstored] at hnot
    cases hnot
  | spend => cases (hnow _ h).2
  | drop phase jars hdrew hcallback hpassed =>
    have huse := use_of_accepted (hnow _ h).2
    rw [use_of_passed hpassed] at huse
    cases huse

/-- The state a callback stores with is unused when it does. -/
theorem BrokerRun.Once.unused (h : s.Once) {e : BrokerEvent} {call : CallbackCall}
    {cookie : Option String} {saved : OAuthState} {usedAt : Time}
    (hnot : (s.requests r).accepted = none)
    (hstores : ((brokerStep lib s e).requests r).accepted = some (call, cookie, saved, usedAt)) :
    ∃ o ∈ s.db.states, o.id = saved.id ∧ o.usedAt = none := by
  have huse : (s.requests r).use = some (saved.id, false) := by
    rw [exchanging_of_accepted hnot hstores]
    rfl
  by_contra hused
  refine h.unspent r saved.id huse ⟨h.held r saved.id false huse, fun o ho hid hnone => ?_⟩
  exact hused ⟨o, ho, hid, hnone⟩

end Sound

/-! ## Runs -/

/-- **A callback is bound to its browser.**  Over every run of connects, reconnects
and callbacks in which a callback that passes carries no state but its cookie's:
whenever a callback stored credentials, its browser had sent the cookie it was
given by a connect of the same user for the same broker, with a state neither used
nor expired; and every connection was stored by such a callback.  Where moreover
no two callbacks with one state await the broker together, a step that stores
credentials finds the state still unused, and each state is stored with once. -/
theorem broker_callback_bound {lib : BrokerLibraries} (hhash : Function.Injective lib.hashToken)
    (hsecret : Function.Injective lib.secretAt) {events : List BrokerEvent} {s : BrokerRun}
    (h : Run (Guarded (CarriesCookie lib) (Steps (brokerStep lib))) {} events s) :
    (∀ r call cookie saved usedAt,
      (s.requests r).accepted = some (call, cookie, saved, usedAt) →
      s.Bound lib call cookie saved usedAt) ∧
    (∀ c ∈ s.db.connections, s.Stored c.userId c.broker) ∧
    (Run (Guarded (NotInFlight lib) (Steps (brokerStep lib))) {} events s →
      (∀ e r call cookie saved usedAt, (s.requests r).accepted = none →
        ((brokerStep lib s e).requests r).accepted = some (call, cookie, saved, usedAt) →
        ∃ o ∈ s.db.states, o.id = saved.id ∧ o.usedAt = none) ∧
      ∀ r r' call call' cookie cookie' saved saved' usedAt usedAt',
      (s.requests r).accepted = some (call, cookie, saved, usedAt) →
      (s.requests r').accepted = some (call', cookie', saved', usedAt') →
      saved.id = saved'.id → r = r') := by
  have hsound : s.Sound lib := by
    exact h.invariant (sound_start lib) fun s e t hs ⟨hcarries, ht⟩ =>
      ht ▸ sound_brokerStep hs hhash hsecret hcarries
  refine ⟨?_, ?_, fun hflight => ?_⟩
  · intro r call cookie saved usedAt hr
    refine hsound.bound r call cookie saved usedAt ?_
    generalize s.requests r = phase at hr ⊢
    cases phase with
    | stored => exact hr
    | finished => exact hr
    | _ => cases hr
  · refine h.invariant_of
      (P := fun s : BrokerRun => ∀ c ∈ s.db.connections, s.Stored c.userId c.broker)
      (sound_start lib) ?_ (fun _ h => nomatch h) ?_
    · exact fun s e t hs ⟨hcarries, ht⟩ => ht ▸ sound_brokerStep hs hhash hsecret hcarries
    · exact fun s e t hs hstored ⟨_, ht⟩ => ht ▸ stored_brokerStep hs hstored e
  · have honce : s.Once := by
      refine hflight.invariant ⟨?_, ?_, exclusive_none, ?_⟩ fun s e t hs ⟨hfree, ht⟩ =>
        ht ▸ once_brokerStep hs hfree
      · exact fun _ h => nomatch h
      · exact fun _ _ _ h => nomatch h
      · exact fun _ _ h => nomatch h
    refine ⟨fun e r call cookie saved usedAt hnot hstores => honce.unused hnot hstores, ?_⟩
    intro r r' call call' cookie cookie' saved saved' usedAt usedAt' hr hr' hid
    exact honce.exclusive.once r r' saved.id true true (use_of_accepted hr)
      (hid ▸ use_of_accepted hr')

/-! ### Two runs -/

def sampleBrokerLibraries : BrokerLibraries where
  toAuthLibraries := { sampleLibraries with
    secretAt := fun n => sampleLibraries.secretAt (n + 1) }
  fromIsoformat _ := none

theorem stateAt_injective : Function.Injective sampleBrokerLibraries.secretAt :=
  secretAt_injective.comp (add_left_injective 1)

/-- A user connects in browser 1. -/
def connectUpstox : List BrokerEvent := [
  ⟨0, .connect ⟨1, ⟨7, none⟩, .upstox⟩⟩, ⟨0, .authorized none 0⟩, ⟨0, .deliver 0⟩]

def upstoxCallback (browser : ℕ) (state : Option String) : CallbackCall :=
  { browser := browser, broker := .upstox, state := state, code := some "code" }

/-- The broker sends a browser back, and gives credentials for the code. -/
def callbackIn (call : CallbackCall) : List BrokerEvent :=
  [⟨1, .send call 5⟩, ⟨1, .check 6⟩,
    ⟨1, .exchanged (.credentials ⟨⟨some "client", some "token"⟩, none⟩)⟩]

theorem carriesCookie_of_ne_check {lib : BrokerLibraries} {s : BrokerRun} {e : BrokerEvent}
    (h : ∀ now, e.action ≠ .check now) : CarriesCookie lib s e :=
  fun now _ _ _ hcheck => absurd hcheck (h now)

theorem notInFlight_of_ne_check {lib : BrokerLibraries} {s : BrokerRun} {e : BrokerEvent}
    (h : ∀ now, e.action ≠ .check now) : NotInFlight lib s e :=
  fun now _ _ _ hcheck => absurd hcheck (h now)

/-- The broker has sent the browser back, and is asked for credentials. -/
def awaitingUpstox : BrokerRun :=
  (connectUpstox ++ (callbackIn (upstoxCallback 1 none)).take 2).foldl
    (brokerStep sampleBrokerLibraries) {}

/-- It has given them. -/
def storedUpstox : BrokerRun :=
  (connectUpstox ++ callbackIn (upstoxCallback 1 none)).foldl (brokerStep sampleBrokerLibraries) {}

theorem awaitingUpstox_carriesCookie : Run (Guarded (CarriesCookie sampleBrokerLibraries)
    (Steps (brokerStep sampleBrokerLibraries))) {}
    (connectUpstox ++ (callbackIn (upstoxCallback 1 none)).take 2) awaitingUpstox := by
  refine .cons ⟨carriesCookie_of_ne_check (fun _ h => nomatch h), rfl⟩ ?_
  refine .cons ⟨carriesCookie_of_ne_check (fun _ h => nomatch h), rfl⟩ ?_
  refine .cons ⟨carriesCookie_of_ne_check (fun _ h => nomatch h), rfl⟩ ?_
  refine .cons ⟨carriesCookie_of_ne_check (fun _ h => nomatch h), rfl⟩ ?_
  refine .single ⟨?_, rfl⟩
  intro now call cookie saved _ hsent _
  obtain ⟨rfl, -⟩ := BrokerPhase.sent.inj hsent
  exact Or.inl rfl

theorem awaitingUpstox_notInFlight : Run (Guarded (NotInFlight sampleBrokerLibraries)
    (Steps (brokerStep sampleBrokerLibraries))) {}
    (connectUpstox ++ (callbackIn (upstoxCallback 1 none)).take 2) awaitingUpstox := by
  refine .cons ⟨notInFlight_of_ne_check (fun _ h => nomatch h), rfl⟩ ?_
  refine .cons ⟨notInFlight_of_ne_check (fun _ h => nomatch h), rfl⟩ ?_
  refine .cons ⟨notInFlight_of_ne_check (fun _ h => nomatch h), rfl⟩ ?_
  refine .cons ⟨notInFlight_of_ne_check (fun _ h => nomatch h), rfl⟩ ?_
  refine .single ⟨?_, rfl⟩
  intro now call cookie saved _ _ _ r call' cookie' saved' usedAt hexchanging
  -- request 0 has set its cookie, request 1 is sent, and the others are idle
  rcases r with _ | _ | r
  all_goals cases hexchanging

theorem broker_callback_bound_sameBrowser :
    storedUpstox.Bound sampleBrokerLibraries (upstoxCallback 1 none) (some "a")
      ⟨0, 7, .upstox, sampleDigest "a", minutes 10, none⟩ 6 ∧
    ∃ o ∈ awaitingUpstox.db.states, o.id = 0 ∧ o.usedAt = none := by
  have hnext : CarriesCookie sampleBrokerLibraries awaitingUpstox
      ⟨1, .exchanged (.credentials ⟨⟨some "client", some "token"⟩, none⟩)⟩ :=
    carriesCookie_of_ne_check (fun _ h => nomatch h)
  have hstored : Run (Guarded (CarriesCookie sampleBrokerLibraries)
      (Steps (brokerStep sampleBrokerLibraries))) {} _ storedUpstox :=
    awaitingUpstox_carriesCookie.snoc ⟨hnext, rfl⟩
  have haccepted : (storedUpstox.requests 1).accepted = some (upstoxCallback 1 none, some "a",
      ⟨0, 7, .upstox, sampleDigest "a", minutes 10, none⟩, 6) := by decide +kernel
  refine ⟨(broker_callback_bound sampleDigest_injective stateAt_injective hstored).1 1 _ _ _ _
    haccepted, ?_⟩
  exact ((broker_callback_bound sampleDigest_injective stateAt_injective
    awaitingUpstox_carriesCookie).2.2 awaitingUpstox_notInFlight).1
      ⟨1, .exchanged (.credentials ⟨⟨some "client", some "token"⟩, none⟩)⟩ 1 _ _ _ _
      (by decide +kernel) haccepted

/-- **The state of another browser**: the user of browser 1 has browser 2, which
holds no cookie, call back with their state, and is given its account. -/
theorem attacker_state_accepted :
    let s := (connectUpstox ++ callbackIn (upstoxCallback 2 (some "a"))).foldl
      (brokerStep sampleBrokerLibraries) {}
    (s.requests 1).accepted = some (upstoxCallback 2 (some "a"), none,
      ⟨0, 7, .upstox, sampleDigest "a", minutes 10, none⟩, 6) ∧ s.jars 2 = none ∧
    s.db.connections.map (fun c => (c.userId, c.credentials.accessToken)) =
      [(7, some "token")] := by
  refine ⟨?_, ?_, ?_⟩
  · decide +kernel
  · decide +kernel
  · decide +kernel

end GnkAlgo
