import GnkAlgo.Auth.Requests
import GnkAlgo.Lib.SlidingWindow

/-!
# The rate limiter

`RateLimiter` of `backend/app/rate_limit.py`: a queue of the moments of accepted
calls for every key.  A call evicts what has left its window, and is refused where
the queue is as long as the limit.  `time.monotonic()` is an exact number of seconds.

* `RateLimiter.check` — one call, under the lock;
* `LimiterRun.Sound` — the queue of a key is what its window has of the accepted calls;
* `rate_limiter_exact` — a call is refused exactly when the window that ends with it
  is full, and no window is ever more than full.
-/

namespace GnkAlgo

open Caps SlidingWindow

/-- `self.events`, a `defaultdict(deque)`, oldest moment first. -/
structure RateLimiter where
  events : String → List ℚ := fun _ => []

/-- `HTTPException(status_code=429, detail="Too many requests")`. -/
def tooManyRequests : HttpError := ⟨429, "Too many requests"⟩

/-- `RateLimiter.check`. -/
def RateLimiter.check (now : ℚ) (s : RateLimiter) (key : String) (limit : ℕ) (window : ℤ) :
    RateLimiter × Except HttpError Unit :=
  let bucket := (s.events key).dropWhile fun event => event ≤ now - window
  if limit ≤ bucket.length then
    (⟨Function.update s.events key bucket⟩, .error tooManyRequests)
  else (⟨Function.update s.events key (bucket ++ [now])⟩, .ok ())

/-! ## Runs -/

/-- A call of `check`. -/
structure LimiterCall where
  now : ℚ
  key : String
  limit : ℕ
  window : ℤ

/-- The limiter, and the keys and moments of the calls it has accepted. -/
structure LimiterRun where
  limiter : RateLimiter := {}
  accepted : List (String × ℚ) := []

def limiterStep (s : LimiterRun) (call : LimiterCall) : LimiterRun :=
  let (limiter, result) := s.limiter.check call.now call.key call.limit call.window
  { limiter
    accepted := match result with
      | .ok () => s.accepted ++ [(call.key, call.now)]
      | .error _ => s.accepted }

/-- The moments at which calls of a key were accepted. -/
def LimiterRun.acceptedOf (s : LimiterRun) (key : String) : List ℚ :=
  (s.accepted.filter fun entry => entry.1 = key).map Prod.snd

/-- The call is refused. -/
def LimiterRun.Refuses (s : LimiterRun) (call : LimiterCall) : Prop :=
  (s.limiter.check call.now call.key call.limit call.window).2 = .error tooManyRequests

/-- What the calls of a key keep: its queue, and the two kinds of half-open windows. -/
structure LimiterRun.Sound (key : String) (limit : ℕ) (window : ℤ) (now : ℚ) (s : LimiterRun) :
    Prop where
  holds : Holds (window : ℚ) (s.acceptedOf key) (s.limiter.events key) now
  capped_Ico : Capped limit (fun start x => x ∈ Set.Ico start (start + (window : ℚ)))
    (s.acceptedOf key)
  capped_Ioc : Capped limit (fun start x => x ∈ Set.Ioc start (start + (window : ℚ)))
    (s.acceptedOf key)

section Runs

variable {s : LimiterRun} {key : String} {limit : ℕ} {window : ℤ} {now : ℚ} {call : LimiterCall}

theorem sound_limiterStart (key : String) (limit : ℕ) (window : ℤ) (now : ℚ) :
    ({} : LimiterRun).Sound key limit window now :=
  ⟨holds_nil _ _, capped_nil, capped_nil⟩

/-- **What a call does**: it is refused where what is left of the queue is as long as
the limit, and else enters its moment. -/
theorem limiterStep_cases (s : LimiterRun) (call : LimiterCall) :
    (call.limit ≤ ((s.limiter.events call.key).dropWhile
        fun event => event ≤ call.now - call.window).length ∧ s.Refuses call ∧
      (limiterStep s call).accepted = s.accepted ∧
      (limiterStep s call).limiter.events = Function.update s.limiter.events call.key
        ((s.limiter.events call.key).dropWhile fun event => event ≤ call.now - call.window)) ∨
    (((s.limiter.events call.key).dropWhile
        fun event => event ≤ call.now - call.window).length < call.limit ∧ ¬ s.Refuses call ∧
      (limiterStep s call).accepted = s.accepted ++ [(call.key, call.now)] ∧
      (limiterStep s call).limiter.events = Function.update s.limiter.events call.key
        ((s.limiter.events call.key).dropWhile (fun event => event ≤ call.now - call.window) ++
          [call.now])) := by
  unfold limiterStep LimiterRun.Refuses RateLimiter.check
  dsimp only
  by_cases hfull : call.limit ≤ ((s.limiter.events call.key).dropWhile
      fun event => event ≤ call.now - call.window).length
  · rw [if_pos hfull]
    exact Or.inl ⟨hfull, rfl, rfl, rfl⟩
  · rw [if_neg hfull]
    exact Or.inr ⟨not_le.1 hfull, nofun, rfl, rfl⟩

/-- What is left of the queue of a key when a call of it comes. -/
theorem LimiterRun.Sound.evicted (h : s.Sound key limit window now) :
    (s.limiter.events key).dropWhile (fun event => event ≤ now - window) =
      (s.acceptedOf key).filter fun x => x ∈ Set.Ioc (now - (window : ℚ)) now :=
  h.holds.evict_eq

theorem LimiterRun.Sound.length_le (h : s.Sound key limit window now) :
    ((s.acceptedOf key).filter fun x => x ∈ Set.Ioc (now - (window : ℚ)) now).length ≤ limit := by
  have hle := h.capped_Ioc (now - window)
  simpa only [sub_add_cancel] using hle

/-- **Refused exactly when the window is full.** -/
theorem LimiterRun.Sound.refuses_iff (h : s.Sound key limit window call.now) (hkey : call.key = key)
    (hlimit : call.limit = limit) (hwindow : call.window = window) :
    s.Refuses call ↔ ((s.acceptedOf key).filter
      fun x => x ∈ Set.Ioc (call.now - (window : ℚ)) call.now).length = limit := by
  have hle := h.length_le
  rw [← h.evicted] at hle ⊢
  subst hkey hlimit hwindow
  rcases limiterStep_cases s call with ⟨hfull, hrefuses, -⟩ | ⟨hroom, hrefuses, -⟩
  · exact iff_of_true hrefuses (hle.antisymm hfull)
  · exact iff_of_false hrefuses hroom.ne

/-- **One call** of any key. -/
theorem sound_limiterStep (h : s.Sound key limit window call.now)
    (hfixed : call.key = key → call.limit = limit ∧ call.window = window) :
    (limiterStep s call).Sound key limit window call.now := by
  by_cases hkey : call.key = key
  · obtain ⟨hlimit, hwindow⟩ := hfixed hkey
    subst hkey hlimit hwindow
    rcases limiterStep_cases s call with
      ⟨-, -, haccepted, hevents⟩ | ⟨hroom, -, haccepted, hevents⟩
    · have hsame : (limiterStep s call).acceptedOf call.key = s.acceptedOf call.key := by
        rw [LimiterRun.acceptedOf, haccepted]
        rfl
      refine ⟨?_, hsame ▸ h.capped_Ico, hsame ▸ h.capped_Ioc⟩
      rw [hsame, hevents, Function.update_self]
      exact h.holds.evict
    · have hadded : (limiterStep s call).acceptedOf call.key =
          s.acceptedOf call.key ++ [call.now] := by
        rw [LimiterRun.acceptedOf, haccepted, List.filter_append, List.map_append,
          List.filter_cons_of_pos (by simp)]
        rfl
      have hcount : ((s.acceptedOf call.key).filter
          fun x => call.now - (call.window : ℚ) < x).length < call.limit := by
        rw [h.evicted] at hroom
        refine lt_of_le_of_lt (le_of_eq ?_) hroom
        congr 1
        refine List.filter_congr fun x hx => decide_eq_decide.2 ?_
        exact (and_iff_left (h.holds.past x hx)).symm
      refine ⟨?_, ?_, ?_⟩
      · rw [hadded, hevents, Function.update_self]
        exact h.holds.evict.admit
      · rw [hadded]
        exact capped_admit (fun _ _ _ => narrow_Ico) h.capped_Ico hcount
      · rw [hadded]
        exact capped_admit (fun _ _ _ => narrow_Ioc) h.capped_Ioc hcount
  · -- a call of another key
    have hsame : (limiterStep s call).acceptedOf key = s.acceptedOf key ∧
        (limiterStep s call).limiter.events key = s.limiter.events key := by
      rcases limiterStep_cases s call with ⟨-, -, haccepted, hevents⟩ | ⟨-, -, haccepted, hevents⟩
      · rw [LimiterRun.acceptedOf, haccepted, hevents, Function.update_of_ne (Ne.symm hkey)]
        exact ⟨rfl, rfl⟩
      · rw [LimiterRun.acceptedOf, haccepted, hevents, Function.update_of_ne (Ne.symm hkey),
          List.filter_append, List.filter_cons_of_neg (by simpa using hkey), List.filter_nil,
          List.append_nil]
        exact ⟨rfl, rfl⟩
    exact ⟨by rw [hsame.1, hsame.2]; exact h.holds, hsame.1 ▸ h.capped_Ico, hsame.1 ▸ h.capped_Ioc⟩

theorem LimiterRun.Sound.later (h : s.Sound key limit window now) {t : ℚ} (ht : now ≤ t) :
    s.Sound key limit window t :=
  ⟨h.holds.later ht, h.capped_Ico, h.capped_Ioc⟩

/-- **Calls in order of time.** -/
theorem sound_run {calls : List LimiterCall}
    (hordered : (calls.map LimiterCall.now).Pairwise (· ≤ ·))
    (hfixed : ∀ call ∈ calls, call.key = key → call.limit = limit ∧ call.window = window)
    (hlater : ∀ call ∈ calls, call.now ≤ now) :
    (calls.foldl limiterStep {}).Sound key limit window now := by
  induction calls using List.reverseRecOn generalizing now with
  | nil => exact sound_limiterStart key limit window now
  | append_singleton calls call ih =>
    rw [List.map_append, List.pairwise_append] at hordered
    rw [List.foldl_append]
    have hbefore := ih hordered.1 (fun c hc => hfixed c (List.mem_append_left _ hc))
      fun c hc => hordered.2.2 c.now (List.mem_map_of_mem hc) call.now (by simp)
    exact (sound_limiterStep hbefore (hfixed call (by simp))).later (hlater call (by simp))

/-- **The limiter is an exact sliding window.**  For a key with one limit and one
window, no half-open interval of the window's length has more accepted calls than the
limit, and a call is refused exactly when the interval that ends with it has as many. -/
theorem rate_limiter_exact {calls : List LimiterCall}
    (hordered : (calls.map LimiterCall.now).Pairwise (· ≤ ·))
    (hfixed : ∀ call ∈ calls, call.key = key → call.limit = limit ∧ call.window = window) :
    (∀ start : ℚ, (((calls.foldl limiterStep {}).acceptedOf key).filter
        fun x => x ∈ Set.Ico start (start + window)).length ≤ limit ∧
      (((calls.foldl limiterStep {}).acceptedOf key).filter
        fun x => x ∈ Set.Ioc start (start + window)).length ≤ limit) ∧
    ∀ before call after, calls = before ++ call :: after → call.key = key →
      ((before.foldl limiterStep {}).Refuses call ↔
        (((before.foldl limiterStep {}).acceptedOf key).filter
          fun x => x ∈ Set.Ioc (call.now - window) call.now).length = limit) := by
  constructor
  · intro start
    cases hlast : calls.getLast? with
    | none =>
      rw [List.getLast?_eq_none_iff.1 hlast]
      exact ⟨Nat.zero_le _, Nat.zero_le _⟩
    | some last =>
      obtain ⟨front, rfl⟩ := List.getLast?_eq_some_iff.1 hlast
      have hsound : ((front ++ [last]).foldl limiterStep {}).Sound key limit window last.now := by
        refine sound_run hordered hfixed fun call hcall => ?_
        rw [List.map_append, List.pairwise_append] at hordered
        rcases List.mem_append.1 hcall with hcall | hcall
        · exact hordered.2.2 call.now (List.mem_map_of_mem hcall) last.now (by simp)
        · rw [List.mem_singleton.1 hcall]
      exact ⟨hsound.capped_Ico start, hsound.capped_Ioc start⟩
  · rintro before call after rfl hkey
    rw [List.map_append, List.pairwise_append] at hordered
    have hsound : (before.foldl limiterStep {}).Sound key limit window call.now :=
      sound_run hordered.1 (fun c hc => hfixed c (List.mem_append_left _ hc))
        fun c hc => hordered.2.2 c.now (List.mem_map_of_mem hc) call.now (by simp)
    obtain ⟨hlimit, hwindow⟩ := hfixed call (by simp) hkey
    exact hsound.refuses_iff hkey hlimit hwindow

end Runs

/-- Two calls of a key, and one of another. -/
def loginCalls : List LimiterCall := [
  { now := 0, key := "login:a", limit := 2, window := 60 },
  { now := 1, key := "login:b", limit := 1, window := 60 },
  { now := 30, key := "login:a", limit := 2, window := 60 }]

/-- A third call of it, within the window. -/
def thirdLogin : LimiterCall := { now := 59, key := "login:a", limit := 2, window := 60 }

theorem rate_limiter_exact_third : (loginCalls.foldl limiterStep {}).Refuses thirdLogin :=
  ((@rate_limiter_exact "login:a" 2 60 (loginCalls ++ [thirdLogin]) (by decide +kernel)
    (by decide)).2 loginCalls thirdLogin [] rfl rfl).2 (by decide +kernel)

end GnkAlgo
