import GnkAlgo.Lib.Crossings
import GnkAlgo.Models

/-!
# The crossover of two moving averages

`backend/app/strategies/evaluator.py`: the action a strategy takes after a
candle, from the closes up to it.

* `evaluateSmaCross` — the decision after a list of closes;
* `emittedActions` — the actions after the first close, the first two and so on,
  as a preview makes them;
* `crossovers_tracked` — the actions of a series miss no crossing of its averages
  and invent none.
-/

namespace GnkAlgo

open Crossings

/-! ## The decision -/

structure CrossDecision where
  action : Option OrderSide
  fastAverage : ℚ
  slowAverage : ℚ
  previousFastAverage : ℚ
  previousSlowAverage : ℚ
  deriving DecidableEq, Repr

/-- `sum(closes[-period:]) / period`. -/
def average (period : ℕ) (closes : List ℚ) : ℚ := (closes.rtake period).sum / period

def evaluateSmaCross (closes : List ℚ) (fastPeriod slowPeriod : ℕ) : Option CrossDecision :=
  if fastPeriod < 2 ∨ slowPeriod ≤ fastPeriod ∨ closes.length < slowPeriod + 1 then none
  else
    let previous := closes.dropLast
    let previousFast := average fastPeriod previous
    let previousSlow := average slowPeriod previous
    let currentFast := average fastPeriod closes
    let currentSlow := average slowPeriod closes
    let action :=
      if previousFast ≤ previousSlow ∧ currentFast > currentSlow then some OrderSide.buy
      else if previousFast ≥ previousSlow ∧ currentFast < currentSlow then some OrderSide.sell
      else none
    some ⟨action, currentFast, currentSlow, previousFast, previousSlow⟩

/-- The action after a list of closes, if there is a decision and it has one. -/
def actionAfter (fastPeriod slowPeriod : ℕ) (closes : List ℚ) : Option OrderSide :=
  (evaluateSmaCross closes fastPeriod slowPeriod).bind CrossDecision.action

/-- The actions after the first close, after the first two, and so on. -/
def emittedActions (fastPeriod slowPeriod : ℕ) (closes : List ℚ) : List OrderSide :=
  (List.range closes.length).filterMap fun k => actionAfter fastPeriod slowPeriod (closes.take (k + 1))

theorem emittedActions_concat (fast slow : ℕ) (closes : List ℚ) (close : ℚ) :
    emittedActions fast slow (closes ++ [close]) =
      emittedActions fast slow closes ++ (actionAfter fast slow (closes ++ [close])).toList := by
  unfold emittedActions
  rw [List.length_append, List.length_singleton, List.range_succ, List.filterMap_append]
  congr 1
  · refine List.filterMap_congr fun k hk => ?_
    rw [List.take_append_of_le_length (List.mem_range.1 hk)]
  · have htake : (closes ++ [close]).take (closes.length + 1) = closes ++ [close] :=
      List.take_of_length_le (by simp)
    rw [List.filterMap_cons, htake, List.filterMap_nil]
    cases actionAfter fast slow (closes ++ [close]) <;> rfl

/-! ## Decisions are crossings -/

/-- The action of a crossing: the fast average is the first of the pair. -/
def sideOf : Direction → OrderSide
  | .up => .buy
  | .down => .sell

def OrderSide.other : OrderSide → OrderSide
  | .buy => .sell
  | .sell => .buy

theorem sideOf_flip (d : Direction) : sideOf d.flip = (sideOf d).other := by
  cases d <;> rfl

theorem sideOf_eq_buy {d : Direction} : sideOf d = .buy ↔ d = .up := by
  cases d <;> decide

/-- The two averages after a list of closes. -/
def averages (fastPeriod slowPeriod : ℕ) (closes : List ℚ) : ℚ × ℚ :=
  (average fastPeriod closes, average slowPeriod closes)

section Periods

variable {fast slow : ℕ} {closes : List ℚ}

theorem actionAfter_eq_none (h : closes.length ≤ slow) : actionAfter fast slow closes = none := by
  have hguard : fast < 2 ∨ slow ≤ fast ∨ closes.length < slow + 1 := Or.inr (Or.inr (by omega))
  rw [actionAfter, evaluateSmaCross, if_pos hguard, Option.bind_none]

theorem actionAfter_eq_cross (hfast : 2 ≤ fast) (hslow : fast < slow) (h : slow < closes.length) :
    actionAfter fast slow closes =
      (cross (averages fast slow closes.dropLast) (averages fast slow closes)).map sideOf := by
  have hguard : ¬ (fast < 2 ∨ slow ≤ fast ∨ closes.length < slow + 1) := by omega
  rw [actionAfter, evaluateSmaCross, if_neg hguard, Option.bind_some]
  dsimp only [cross, averages]
  split_ifs <;> rfl

/-- The two averages after the first `k` closes. -/
def averagesAt (fast slow : ℕ) (closes : List ℚ) (k : ℕ) : ℚ × ℚ :=
  averages fast slow (closes.take k)

theorem actionAfter_take (hfast : 2 ≤ fast) (hslow : fast < slow) {k : ℕ} (hk : slow ≤ k)
    (hlen : k < closes.length) : actionAfter fast slow (closes.take (k + 1)) =
      (cross (averagesAt fast slow closes k) (averagesAt fast slow closes (k + 1))).map sideOf := by
  have htake : (closes.take (k + 1)).dropLast = closes.take k := by
    rw [List.dropLast_eq_take, List.take_take, List.length_take]
    congr 1
    omega
  rw [actionAfter_eq_cross hfast hslow (by rw [List.length_take]; omega), htake]
  rfl

/-- The emitted actions are the crossings of the averages, from the first `slow`
closes on. -/
theorem emittedActions_eq (hfast : 2 ≤ fast) (hslow : fast < slow) :
    emittedActions fast slow closes =
      (crossings (averagesAt fast slow closes) slow (closes.length - slow)).map sideOf := by
  have hearly : ∀ n, n ≤ slow → (List.range' 0 n).filterMap
      (fun k => actionAfter fast slow (closes.take (k + 1))) = [] := by
    intro n hn
    refine List.filterMap_eq_nil_iff.2 fun k hk => actionAfter_eq_none ?_
    rw [List.mem_range'_1] at hk
    rw [List.length_take]
    omega
  rw [emittedActions, List.range_eq_range']
  rcases le_total closes.length slow with hle | hle
  · rw [hearly _ hle, Nat.sub_eq_zero_of_le hle]
    rfl
  · have hsplit : List.range' 0 closes.length =
        List.range' 0 slow ++ List.range' slow (closes.length - slow) := by
      rw [← Nat.add_sub_cancel' hle, ← List.range'_append_1, Nat.zero_add, Nat.add_sub_cancel_left]
    rw [hsplit, List.filterMap_append, hearly slow le_rfl, List.nil_append, crossings,
      List.map_filterMap]
    refine List.filterMap_congr fun k hk => ?_
    rw [List.mem_range'_1] at hk
    exact actionAfter_take hfast hslow hk.1 (by omega)

/-! ## The last closes are enough -/

theorem average_append {period : ℕ} {earlier last : List ℚ} (h : period ≤ last.length) :
    average period (earlier ++ last) = average period last := by
  have hdrop : (earlier ++ last).length - period = earlier.length + (last.length - period) := by
    rw [List.length_append]
    omega
  rw [average, average, List.rtake, List.rtake, hdrop, List.drop_length_add_append]

/-- **A decision depends on the last `slow + 1` closes only.** -/
theorem evaluateSmaCross_append {earlier last : List ℚ} (hslow : fast < slow)
    (h : slow + 1 ≤ last.length) :
    evaluateSmaCross (earlier ++ last) fast slow = evaluateSmaCross last fast slow := by
  have hne : last ≠ [] := List.ne_nil_of_length_pos (by omega)
  have hguard : (fast < 2 ∨ slow ≤ fast ∨ (earlier ++ last).length < slow + 1) ↔
      (fast < 2 ∨ slow ≤ fast ∨ last.length < slow + 1) := by
    rw [List.length_append]
    omega
  have hprevious : slow ≤ last.dropLast.length := by
    rw [List.length_dropLast]
    omega
  simp only [evaluateSmaCross, hguard, List.dropLast_append_of_ne_nil hne]
  rw [average_append (by omega), average_append (by omega), average_append (by omega),
    average_append (by omega)]

/-! ## Negated closes -/

theorem average_neg (period : ℕ) (closes : List ℚ) :
    average period (closes.map (- ·)) = - average period closes := by
  have hsum : ∀ l : List ℚ, (l.map (- ·)).sum = - l.sum := by
    intro l
    induction l with
    | nil => simp
    | cons x l ih => rw [List.map_cons, List.sum_cons, List.sum_cons, ih, neg_add]
  rw [average, average, List.rtake, List.rtake, List.length_map, ← List.map_drop, hsum, neg_div]

theorem actionAfter_neg (hfast : 2 ≤ fast) (hslow : fast < slow) :
    actionAfter fast slow (closes.map (- ·)) =
      (actionAfter fast slow closes).map OrderSide.other := by
  rcases le_or_gt closes.length slow with hle | hlt
  · rw [actionAfter_eq_none hle, actionAfter_eq_none (by rwa [List.length_map])]
    rfl
  · have hcross : ∀ p q : ℚ × ℚ, cross (-p) (-q) = cross p.swap q.swap := by
      intro p q
      simp only [cross, Prod.fst_neg, Prod.snd_neg, Prod.fst_swap, Prod.snd_swap, neg_le_neg_iff,
        neg_lt_neg_iff]
    have haverages : ∀ l : List ℚ, averages fast slow (l.map (- ·)) = - averages fast slow l :=
      fun l => Prod.ext (average_neg fast l) (average_neg slow l)
    rw [actionAfter_eq_cross hfast hslow hlt,
      actionAfter_eq_cross hfast hslow (by rwa [List.length_map]), ← List.map_dropLast, haverages,
      haverages, hcross, cross_swap, Option.map_map, Option.map_map]
    exact congrArg (Option.map · _) (funext sideOf_flip)

/-! ## The actions of a series -/

/-- **The last action says which average is above.** -/
theorem last_action_buy_iff (hfast : 2 ≤ fast) (hslow : fast < slow)
    (hne : average fast closes ≠ average slow closes) (hsome : emittedActions fast slow closes ≠ []) :
    (emittedActions fast slow closes).getLast? = some .buy ↔
      average slow closes < average fast closes := by
  rw [emittedActions_eq hfast hslow] at hsome ⊢
  have hcrossed : crossings (averagesAt fast slow closes) slow (closes.length - slow) ≠ [] :=
    fun h => hsome (by rw [h]; rfl)
  have hlen : slow + (closes.length - slow) = closes.length := by
    rcases le_total closes.length slow with hle | hle
    · rw [Nat.sub_eq_zero_of_le hle] at hcrossed
      exact absurd rfl hcrossed
    · omega
  have hlast : averagesAt fast slow closes closes.length = averages fast slow closes := by
    rw [averagesAt, List.take_length]
  have hiff := last_crossing_up_iff hcrossed (by rw [hlen, hlast]; exact hne)
  rw [hlen, hlast] at hiff
  rw [List.getLast?_map, Option.map_eq_some_iff]
  simp only [sideOf_eq_buy, exists_eq_right]
  exact hiff

/-- **A change of sign has its action.** -/
theorem exists_action (hfast : 2 ≤ fast) (hslow : fast < slow) {i j : ℕ} (hi : slow < i)
    (hij : i ≤ j) (hj : j ≤ closes.length) :
    (average fast (closes.take i) ≤ average slow (closes.take i) →
      average slow (closes.take j) < average fast (closes.take j) →
      ∃ k, i < k ∧ k ≤ j ∧ actionAfter fast slow (closes.take k) = some .buy) ∧
    (average slow (closes.take i) ≤ average fast (closes.take i) →
      average fast (closes.take j) < average slow (closes.take j) →
      ∃ k, i < k ∧ k ≤ j ∧ actionAfter fast slow (closes.take k) = some .sell) := by
  constructor
  · intro hbefore hafter
    obtain ⟨k, hik, hkj, hk⟩ :=
      exists_crossing_up (s := averagesAt fast slow closes) hij hbefore hafter
    refine ⟨k + 1, by omega, hkj, ?_⟩
    rw [actionAfter_take hfast hslow (by omega) (by omega), hk]
    rfl
  · intro hbefore hafter
    obtain ⟨k, hik, hkj, hk⟩ :=
      exists_crossing_down (s := averagesAt fast slow closes) hij hbefore hafter
    refine ⟨k + 1, by omega, hkj, ?_⟩
    rw [actionAfter_take hfast hslow (by omega) (by omega), hk]
    rfl

end Periods

/-- **No crossover is missed or invented.**  At every prefix of a series whose
averages differ after some action, the last action is a buy exactly when the
fast average is above the slow one; between two evaluated prefixes over which
the difference changes its sign there is the action of that change; and negating
all closes exchanges the two actions. -/
theorem crossovers_tracked (fast slow : ℕ) (hfast : 2 ≤ fast) (hslow : fast < slow)
    (closes : List ℚ) :
    (∀ seen, seen <+: closes → average fast seen ≠ average slow seen →
      emittedActions fast slow seen ≠ [] →
      ((emittedActions fast slow seen).getLast? = some .buy ↔
        average slow seen < average fast seen)) ∧
    (∀ i j, slow < i → i ≤ j → j ≤ closes.length →
      (average fast (closes.take i) ≤ average slow (closes.take i) →
        average slow (closes.take j) < average fast (closes.take j) →
        ∃ k, i < k ∧ k ≤ j ∧ actionAfter fast slow (closes.take k) = some .buy) ∧
      (average slow (closes.take i) ≤ average fast (closes.take i) →
        average fast (closes.take j) < average slow (closes.take j) →
        ∃ k, i < k ∧ k ≤ j ∧ actionAfter fast slow (closes.take k) = some .sell)) ∧
    ∀ seen, seen <+: closes →
      actionAfter fast slow (seen.map (- ·)) = (actionAfter fast slow seen).map OrderSide.other :=
  ⟨fun _ _ hne hsome => last_action_buy_iff hfast hslow hne hsome,
    fun _ _ hi hij hj => exists_action hfast hslow hi hij hj,
    fun _ _ => actionAfter_neg hfast hslow⟩

/-- Periods of two and three: the averages touch before the fast one rises. -/
theorem crossovers_tracked_twoThree :
    emittedActions 2 3 [3, 3, 3, 3, 6] = [.buy] ∧
    ((emittedActions 2 3 [3, 3, 3, 3, 6]).getLast? = some .buy ↔
      average 3 [3, 3, 3, 3, 6] < average 2 [3, 3, 3, 3, 6]) :=
  ⟨by decide +kernel,
    (crossovers_tracked 2 3 (by decide) (by decide) [3, 3, 3, 3, 6]).1 _ (List.prefix_refl _)
      (by decide +kernel) (by decide +kernel)⟩

end GnkAlgo
