import GnkAlgo.Market.FeedSessions

/-!
# One feed connection

What holds in every run of the feed worker.  A pass starts the next session of a
user next to one that it has only cancelled, and it cancels a session that is
about to record a fatal code; `Unhurried` is the condition that it does not.

* `FeedTask.isRetired`, `FeedTask.isSilent` — tasks that open no socket any more;
* `FeedRun.Sockets` — whose sockets are open, and whose session is in the map;
* `FeedRun.Records` — what stands in the way of an attempt after a fatal code;
* `one_feed_per_user` — both hold in every unhurried run.
-/

namespace GnkAlgo

open Transition

/-! ## What is asked -/

/-- Of the sockets of one user at most one is open. -/
def FeedRun.OneSocket (s : FeedRun) : Prop :=
  ∀ i j t t', s.tasks i = some t → s.tasks j = some t' → t.userId = t'.userId →
    t.phase.isOpen → t'.phase.isOpen → i = j

/-- Between a fatal code and a later attempt the row has been written `CONNECTED`. -/
def FeedRun.FatalKept (s : FeedRun) : Prop :=
  ∀ after between before userId code,
    s.notes = after ++ .attempted userId :: (between ++ .fatal userId code :: before) →
    .connected userId ∈ between

/-- A fatal code came for the user, and the row has not been written `CONNECTED`
since. -/
def barred (userId : Uuid) : List FeedNote → Bool
  | [] => false
  | .attempted _ :: notes => barred userId notes
  | .fatal u _ :: notes => u = userId ∨ barred userId notes
  | .connected u :: notes => u ≠ userId ∧ barred userId notes

/-- The record of this task is lost, and the row stays as it was. -/
def FeedRun.forgets (s : FeedRun) (t : FeedTask) : Bool :=
  t.due.isSome && s.isConnected t.userId && barred t.userId s.notes

/-- A session is started only while no socket of its user is open, and no record of
a fatal code is lost by a cancellation or by an error while the row is `CONNECTED`
as it was. -/
def Unhurried (lib : FeedLibraries) (s : FeedRun) : FeedEvent → Prop
  | .pass userId now =>
    match s.passMove lib userId now with
    | .start _ => ∀ i < s.made, ∀ t ∈ s.tasks i, t.userId = userId → ¬ t.phase.isOpen
    | .drop => ∀ entry ∈ s.sessionOf userId, ∀ t ∈ s.tasks entry.task, ¬ s.forgets t
    | _ => True
  | .task i .fail => ∀ t ∈ s.tasks i, ¬ s.forgets t
  | _ => True

theorem barred_of_fatal {userId : Uuid} {code : ℕ} {between before : List FeedNote}
    (h : .connected userId ∉ between) :
    barred userId (between ++ .fatal userId code :: before) := by
  induction between with
  | nil => simp [barred]
  | cons n between ih =>
    rw [List.mem_cons, not_or] at h
    have hbarred := ih h.2
    cases n with
    | attempted u => exact hbarred
    | fatal u c => simp [barred, hbarred]
    | connected u =>
      have hne : u ≠ userId := fun hu => h.1 (hu ▸ rfl)
      simp [barred, hne, hbarred]

/-! ## What a task can still do -/

namespace FeedTask

/-- The task ends without another socket. -/
def isRetired (t : FeedTask) : Bool :=
  t.cancelled || match t.phase with
    | .closing .cancelled => true
    | .lingering => true
    | .ended => true
    | _ => false

/-- The task attempts no other connection. -/
def isSilent (t : FeedTask) : Bool := t.isRetired || t.phase = .recorded

variable {t : FeedTask} {a : FeedAction} {code : ℕ}

theorem isSilent_of_isRetired (h : t.isRetired) : t.isSilent := by simp [isSilent, h]

theorem not_isRetired_of_not_isSilent (h : ¬ t.isSilent) : ¬ t.isRetired :=
  fun hretired => h (isSilent_of_isRetired hretired)

@[simp] theorem into_userId (t : FeedTask) (phase : FeedPhase) :
    (t.into phase).userId = t.userId := rfl

@[simp] theorem into_phase (t : FeedTask) (phase : FeedPhase) : (t.into phase).phase = phase := rfl

@[simp] theorem into_cancelled (t : FeedTask) (phase : FeedPhase) :
    (t.into phase).cancelled = t.cancelled := rfl

@[simp] theorem cancel_userId (t : FeedTask) : t.cancel.userId = t.userId := by
  unfold cancel
  split <;> rfl

@[simp] theorem cancel_phase (t : FeedTask) : t.cancel.phase = t.phase := by
  unfold cancel
  split <;> rfl

theorem isRetired_cancel (t : FeedTask) : t.cancel.isRetired := by
  unfold cancel
  split
  · rename_i hdone
    cases hphase : t.phase <;> simp_all [FeedPhase.isDone, isRetired]
  · simp [isRetired]

theorem interrupted_userId (t : FeedTask) : t.interrupted.userId = t.userId := by
  unfold interrupted
  split <;> rfl

theorem isRetired_interrupted (t : FeedTask) : t.interrupted.isRetired := by
  unfold interrupted
  split <;> rfl

theorem isOpen_of_interrupted (h : t.interrupted.phase.isOpen) : t.phase.isOpen := by
  unfold interrupted at h
  split at h
  · rename_i hphase
    rw [hphase]
    rfl
  · rename_i exit hphase
    rw [hphase]
    rfl
  · cases h

theorem step_userId (t : FeedTask) (a : FeedAction) : (t.step a).userId = t.userId := by
  unfold step again
  repeat' split
  all_goals first | exact interrupted_userId t | rfl

/-- A retired task stays retired. -/
theorem isRetired_step (h : t.isRetired) (a : FeedAction) : (t.step a).isRetired := by
  unfold step
  split
  · exact isRetired_interrupted t
  · rename_i hcancelled
    rw [isRetired, Bool.eq_false_iff.2 hcancelled, Bool.false_or] at h
    cases hphase : t.phase with
    | closing exit => cases exit <;> cases a <;> simp_all [isRetired, into]
    | _ => cases a <;> simp_all [isRetired, into]

/-- A socket is opened by a task that is not retired. -/
theorem isOpen_step (h : (t.step a).phase.isOpen) : t.phase.isOpen ∨ ¬ t.isRetired := by
  by_cases hretired : t.isRetired
  · left
    unfold step at h
    split at h
    · exact isOpen_of_interrupted h
    · rename_i hcancelled
      rw [isRetired, Bool.eq_false_iff.2 hcancelled, Bool.false_or] at hretired
      cases hphase : t.phase with
      | closing exit => rfl
      | _ => cases a <;> simp_all [into, FeedPhase.isOpen]
  · exact .inr hretired

theorem isSilent_step (h : t.isSilent) (a : FeedAction) : (t.step a).isSilent := by
  by_cases hretired : t.isRetired
  · exact isSilent_of_isRetired (isRetired_step hretired a)
  · have hphase : t.phase = .recorded := by simpa [isSilent, hretired] using h
    have hcancelled : ¬ t.cancelled := fun hc => hretired (by simp [isRetired, hc])
    unfold step
    rw [if_neg hcancelled, hphase]
    cases a <;> simp [isSilent, isRetired, hphase]

/-- What is due is a fatal code, in a task that closes its socket. -/
theorem due_eq (h : t.due = some code) :
    t.phase = .closing (.disconnected code) ∧ code ∈ fatalCodes ∧ ¬ t.cancelled := by
  unfold due at h
  split at h
  · rename_i code' hphase
    split at h
    · rename_i hdue
      cases h
      exact ⟨hphase, hdue⟩
    · cases h
  · cases h

theorem due_of_phase (hphase : t.phase = .closing (.disconnected code)) (hcode : code ∈ fatalCodes)
    (hcancelled : ¬ t.cancelled) : t.due = some code := by
  rw [due, hphase]
  exact if_pos ⟨hcode, hcancelled⟩

theorem isOpen_of_due (h : t.due.isSome) : t.phase.isOpen := by
  obtain ⟨code, hcode⟩ := Option.isSome_iff_exists.1 h
  rw [(due_eq hcode).1]
  rfl

theorem not_isSilent_of_due (h : t.due.isSome) : ¬ t.isSilent := by
  obtain ⟨code, hcode⟩ := Option.isSome_iff_exists.1 h
  obtain ⟨hphase, -, hcancelled⟩ := due_eq hcode
  simp [isSilent, isRetired, hphase, hcancelled]

/-- A record that is due stays due, is made, or is lost. -/
theorem step_of_due (h : t.due = some code) (a : FeedAction) :
    t.step a = match a with
      | .go => t.into .recorded
      | .fail => t.into .ended
      | .disconnect _ => t := by
  obtain ⟨hphase, hcode, hcancelled⟩ := due_eq h
  unfold step
  rw [if_neg hcancelled, hphase]
  cases a with
  | go => exact if_pos hcode
  | fail => exact if_pos hcode
  | disconnect _ => rfl

end FeedTask

/-! ## Sockets -/

namespace FeedRun

variable {s : FeedRun} {userId : Uuid} {i : ℕ} {t t' : FeedTask}

/-- The sessions of the map and the other tasks. -/
structure Sockets (s : FeedRun) : Prop where
  fresh : ∀ i t, s.tasks i = some t → i < s.made
  owned : ∀ entry ∈ s.sessions, ∃ t, s.tasks entry.task = some t ∧ t.userId = entry.userId
  /-- Who may still open a socket is in the map. -/
  current : ∀ i t, s.tasks i = some t → ¬ t.isRetired →
    ∃ entry, s.sessionOf t.userId = some entry ∧ entry.task = i
  /-- Who has one open, and is not in the map, has no successor there. -/
  alone : ∀ i t entry, s.tasks i = some t → t.phase.isOpen → s.sessionOf t.userId = some entry →
    entry.task = i
  single : s.OneSocket

/-- The other tables say nothing about sockets. -/
theorem Sockets.of_same (h : s.Sockets) {s' : FeedRun} (hsessions : s'.sessions = s.sessions)
    (htasks : s'.tasks = s.tasks) (hmade : s'.made = s.made) : s'.Sockets := by
  cases s'
  cases hsessions
  cases htasks
  cases hmade
  exact ⟨h.fresh, h.owned, h.current, h.alone, h.single⟩

theorem mem_of_sessionOf {entry : FeedEntry} (h : s.sessionOf userId = some entry) :
    entry ∈ s.sessions ∧ entry.userId = userId :=
  ⟨List.mem_of_find?_eq_some h, by simpa using List.find?_some h⟩

theorem Sockets.entry_task {entry : FeedEntry} (h : s.Sockets)
    (hentry : s.sessionOf userId = some entry)
    (ht : s.tasks entry.task = some t) : t.userId = userId := by
  obtain ⟨hmem, huser⟩ := mem_of_sessionOf hentry
  obtain ⟨t', ht', huser'⟩ := h.owned entry hmem
  cases ht.symm.trans ht'
  rw [huser', huser]

/-- One task changes. -/
theorem Sockets.setTask (h : s.Sockets) (ht : s.tasks i = some t) (huser : t'.userId = t.userId)
    (hretired : t.isRetired → t'.isRetired)
    (hopen : t'.phase.isOpen → t.phase.isOpen ∨ ¬ t.isRetired) : (s.setTask i t').Sockets := by
  have hkeys : ∀ {j tj}, Function.update s.tasks i (some t') j = some tj →
      ∃ tj', s.tasks j = some tj' ∧ tj'.userId = tj.userId := by
    intro j tj hj
    rw [Function.update_apply] at hj
    split at hj
    · rename_i hji
      cases hj
      exact ⟨t, hji ▸ ht, huser.symm⟩
    · exact ⟨tj, hj, rfl⟩
  have hentry : t'.phase.isOpen → ∀ entry, s.sessionOf t.userId = some entry → entry.task = i := by
    intro ho entry he
    rcases hopen ho with ho | hactive
    · exact h.alone i t entry ht ho he
    · obtain ⟨entry', he', htask⟩ := h.current i t ht hactive
      cases he.symm.trans he'
      exact htask
  have hsame : t'.phase.isOpen → ∀ j tj, s.tasks j = some tj → tj.userId = t.userId →
      tj.phase.isOpen → j = i := by
    intro ho j tj hj hu hoj
    rcases hopen ho with ho | hactive
    · exact h.single j i tj t hj ht hu hoj ho
    · obtain ⟨entry, he, htask⟩ := h.current i t ht hactive
      exact (h.alone j tj entry hj hoj (hu ▸ he)).symm.trans htask
  refine ⟨?_, ?_, ?_, ?_, ?_⟩
  · intro j tj hj
    obtain ⟨tj', hj', -⟩ := hkeys hj
    exact h.fresh j tj' hj'
  · intro entry he
    obtain ⟨tj, hj, hu⟩ := h.owned entry he
    change ∃ tj, Function.update s.tasks i (some t') entry.task = some tj ∧ _
    rw [Function.update_apply]
    split
    · rename_i hji
      cases (hji ▸ hj).symm.trans ht
      exact ⟨t', rfl, huser.trans hu⟩
    · exact ⟨tj, hj, hu⟩
  · intro j tj hj hactive
    change Function.update s.tasks i (some t') j = some tj at hj
    rw [Function.update_apply] at hj
    split at hj
    · rename_i hji
      cases hj
      rw [hji, huser]
      exact h.current i t ht fun hr => hactive (hretired hr)
    · exact h.current j tj hj hactive
  · intro j tj entry hj ho he
    change Function.update s.tasks i (some t') j = some tj at hj
    rw [Function.update_apply] at hj
    split at hj
    · rename_i hji
      cases hj
      rw [hji]
      exact hentry ho entry (huser ▸ he)
    · exact h.alone j tj entry hj ho he
  · intro j k tj tk hj hk hu hoj hok
    change Function.update s.tasks i (some t') j = some tj at hj
    change Function.update s.tasks i (some t') k = some tk at hk
    rw [Function.update_apply] at hj hk
    split at hj
    · rename_i hji
      cases hj
      split at hk
      · rename_i hki
        exact hji.trans hki.symm
      · exact hji.trans (hsame hoj k tk hk (hu.symm.trans huser) hok).symm
    · split at hk
      · rename_i hki
        cases hk
        exact (hsame hok j tj hj (hu.trans huser) hoj).trans hki.symm
      · exact h.single j k tj tk hj hk hu hoj hok

theorem sessionOf_filter_self (sessions : List FeedEntry) (userId : Uuid) :
    (sessions.filter (·.userId ≠ userId)).find? (·.userId = userId) = none := by
  rw [List.find?_eq_none]
  intro entry he
  have hne := (List.mem_filter.1 he).2
  simp_all

theorem sessionOf_filter_of_ne (sessions : List FeedEntry) {userId userId' : Uuid}
    (h : userId' ≠ userId) :
    (sessions.filter (·.userId ≠ userId)).find? (·.userId = userId') =
      sessions.find? (·.userId = userId') := by
  rw [List.find?_filter]
  congr 1
  funext entry
  by_cases hu : entry.userId = userId'
  · simp [hu, h]
  · simp [hu]

theorem sessionOf_drop (s : FeedRun) (userId : Uuid) : (s.drop userId).sessionOf userId = none := by
  unfold drop
  split
  · assumption
  · exact sessionOf_filter_self s.sessions userId

/-- A session leaves the map, and its task is cancelled. -/
theorem Sockets.drop (h : s.Sockets) (userId : Uuid) : (s.drop userId).Sockets := by
  unfold FeedRun.drop
  split
  · exact h
  rename_i entry hentry
  obtain ⟨hmem, huserId⟩ := mem_of_sessionOf hentry
  obtain ⟨t, ht, hu⟩ := h.owned entry hmem
  -- first the task is cancelled, and then the entry goes
  have hcancel : (s.setTask entry.task t.cancel).Sockets :=
    h.setTask ht t.cancel_userId (fun _ => t.isRetired_cancel) fun ho => .inl (by simpa using ho)
  rw [ht, Option.map_some]
  have htask : ∀ j tj, Function.update s.tasks entry.task (some t.cancel) j = some tj →
      ¬ tj.isRetired → tj.userId ≠ userId := by
    intro j tj hj hactive huj
    obtain ⟨entry', he', hj'⟩ := hcancel.current j tj hj hactive
    rw [huj] at he'
    cases hentry.symm.trans he'
    rw [← hj', Function.update_self] at hj
    cases hj
    exact hactive t.isRetired_cancel
  refine ⟨hcancel.fresh, fun e he => hcancel.owned e (List.mem_filter.1 he).1, ?_, ?_,
    hcancel.single⟩
  · intro j tj hj hactive
    obtain ⟨entry', he', hj'⟩ := hcancel.current j tj hj hactive
    exact ⟨entry', (sessionOf_filter_of_ne s.sessions (htask j tj hj hactive)).trans he', hj'⟩
  · intro j tj entry' hj ho he'
    by_cases huj : tj.userId = userId
    · rw [huj] at he'
      exact absurd he' (by
        change (s.sessions.filter (·.userId ≠ userId)).find? (·.userId = userId) ≠ _
        rw [sessionOf_filter_self]
        exact fun hnone => nomatch hnone)
    · exact hcancel.alone j tj entry' hj ho
        ((sessionOf_filter_of_ne s.sessions huj).symm.trans he')

/-- A session starts where the user has none and no socket open. -/
theorem Sockets.start (h : s.Sockets) (hnone : s.sessionOf userId = none)
    (hclosed : ∀ i t, s.tasks i = some t → t.userId = userId → ¬ t.phase.isOpen)
    (loaded : LoadedUser) : (s.start userId loaded).Sockets := by
  have hother : ∀ {userId'}, userId' ≠ userId →
      (s.start userId loaded).sessionOf userId' = s.sessionOf userId' := by
    intro userId' hne
    change (s.sessions ++ [_]).find? _ = _
    rw [List.find?_append]
    simp [sessionOf, hne.symm]
  have hself : (s.start userId loaded).sessionOf userId =
      some ⟨userId, loaded.fingerprint, s.made⟩ := by
    change (s.sessions ++ [_]).find? _ = _
    rw [List.find?_append]
    change (s.sessionOf userId).or _ = _
    simp [hnone]
  have hcases : ∀ {j tj}, (s.start userId loaded).tasks j = some tj →
      j = s.made ∧ tj.userId = userId ∧ tj.phase = .created ∨ s.tasks j = some tj := by
    intro j tj hj
    change Function.update s.tasks s.made _ j = some tj at hj
    rw [Function.update_apply] at hj
    split at hj
    · rename_i hjm
      cases hj
      exact .inl ⟨hjm, rfl, rfl⟩
    · exact .inr hj
  refine ⟨?_, ?_, ?_, ?_, ?_⟩
  · intro j tj hj
    rcases hcases hj with ⟨rfl, -, -⟩ | hj
    · exact Nat.lt_succ_self _
    · exact (h.fresh j tj hj).trans (Nat.lt_succ_self _)
  · intro e he
    change ∃ t, Function.update s.tasks s.made _ e.task = some t ∧ _
    rcases List.mem_append.1 he with he | he
    · obtain ⟨t, ht, hu⟩ := h.owned e he
      rw [Function.update_of_ne (h.fresh _ _ ht).ne]
      exact ⟨t, ht, hu⟩
    · obtain rfl := List.mem_singleton.1 he
      rw [Function.update_self]
      exact ⟨_, rfl, rfl⟩
  · intro j tj hj hactive
    rcases hcases hj with ⟨rfl, hu, -⟩ | hj
    · rw [hu]
      exact ⟨_, hself, rfl⟩
    · obtain ⟨entry, he, htask⟩ := h.current j tj hj hactive
      have hne : tj.userId ≠ userId := by
        rintro hu
        rw [hu, hnone] at he
        cases he
      exact ⟨entry, (hother hne).trans he, htask⟩
  · intro j tj entry hj ho he
    rcases hcases hj with ⟨-, -, hphase⟩ | hj
    · rw [hphase] at ho
      cases ho
    · have hne : tj.userId ≠ userId := fun hu => hclosed j tj hj hu ho
      exact h.alone j tj entry hj ho ((hother hne).symm.trans he)
  · intro j k tj tk hj hk hu hoj hok
    rcases hcases hj with ⟨-, -, hphase⟩ | hj
    · rw [hphase] at hoj
      cases hoj
    rcases hcases hk with ⟨-, -, hphase⟩ | hk
    · rw [hphase] at hok
      cases hok
    exact h.single j k tj tk hj hk hu hoj hok

end FeedRun

/-! ## Records -/

/-- Why no session of a user for whom a fatal code came attempts a connection: one
has still to record it, or the row is not `CONNECTED` and all are silent. -/
structure FeedRun.Records (s : FeedRun) : Prop where
  waits : ∀ userId, barred userId s.notes →
    (∃ i t, s.tasks i = some t ∧ t.userId = userId ∧ t.due.isSome) ∨
      (s.isConnected userId = false ∧
        ∀ i t, s.tasks i = some t → t.userId = userId → t.isSilent)
  kept : ∀ after userId before, s.notes = after ++ .attempted userId :: before →
    ¬ barred userId before

theorem FeedRun.Records.fatalKept {s : FeedRun} (h : s.Records) : s.FatalKept := by
  intro after between before userId code hnotes
  by_contra hnot
  exact h.kept after userId _ hnotes (barred_of_fatal hnot)

namespace FeedRun

variable {s : FeedRun} {userId : Uuid} {i : ℕ} {t t' : FeedTask}

/-- Next to a session that has still to record a code all are silent. -/
theorem Sockets.isSilent_of_due (h : s.Sockets) (ht : s.tasks i = some t) (hdue : t.due.isSome)
    {j : ℕ} (hj : s.tasks j = some t') (huser : t'.userId = t.userId) (hne : j ≠ i) :
    t'.isSilent := by
  by_contra hactive
  have hretired := FeedTask.not_isRetired_of_not_isSilent (FeedTask.not_isSilent_of_due hdue)
  obtain ⟨entry, he, hi⟩ := h.current i t ht hretired
  obtain ⟨entry', he', hj'⟩ :=
    h.current j t' hj (FeedTask.not_isRetired_of_not_isSilent hactive)
  rw [huser] at he'
  cases he.symm.trans he'
  exact hne (hj'.symm.trans hi)

/-- One task changes, and what it has to record stays due. -/
theorem Records.setTask (h : s.Records) (ht : s.tasks i = some t) (huser : t'.userId = t.userId)
    (hdue : t.due.isSome → t'.due.isSome) (hsilent : t.isSilent → t'.isSilent) :
    (s.setTask i t').Records := by
  refine ⟨fun u hbarred => ?_, h.kept⟩
  rcases h.waits u hbarred with ⟨j, tj, hj, hu, hd⟩ | ⟨hrow, hall⟩
  · left
    by_cases hji : j = i
    · subst hji
      cases hj.symm.trans ht
      exact ⟨j, t', Function.update_self .., huser.trans hu, hdue hd⟩
    · exact ⟨j, tj, (Function.update_of_ne hji _ _).trans hj, hu, hd⟩
  · refine .inr ⟨hrow, fun j tj hj hu => ?_⟩
    change Function.update s.tasks i (some t') j = some tj at hj
    rw [Function.update_apply] at hj
    split at hj
    · cases hj
      exact hsilent (hall i t ht (huser.symm.trans hu))
    · exact hall j tj hj hu

/-- A record is lost, where that does no harm. -/
theorem Records.lose (h : s.Records) (hsockets : s.Sockets) (ht : s.tasks i = some t)
    (hdue : t.due.isSome) (hforgets : ¬ s.forgets t) (hsilent : t'.isSilent) :
    (s.setTask i t').Records := by
  refine ⟨fun u hbarred => ?_, h.kept⟩
  by_cases hu : u = t.userId
  · subst hu
    right
    refine ⟨?_, fun j tj hj huj => ?_⟩
    · have hnot : s.isConnected t.userId = false ∨ barred t.userId s.notes = false := by
        simpa [forgets, hdue, Classical.or_iff_not_imp_left] using hforgets
      exact hnot.resolve_right fun hb => Bool.eq_false_iff.1 hb hbarred
    · change Function.update s.tasks i (some t') j = some tj at hj
      rw [Function.update_apply] at hj
      split at hj
      · cases hj
        exact hsilent
      · rename_i hji
        exact hsockets.isSilent_of_due ht hdue hj huj hji
  · rcases h.waits u hbarred with ⟨j, tj, hj, huj, hd⟩ | ⟨hrow, hall⟩
    · have hji : j ≠ i := by
        rintro rfl
        cases hj.symm.trans ht
        exact hu huj.symm
      exact .inl ⟨j, tj, (Function.update_of_ne hji _ _).trans hj, huj, hd⟩
    · refine .inr ⟨hrow, fun j tj hj huj => ?_⟩
      change Function.update s.tasks i (some t') j = some tj at hj
      rw [Function.update_apply] at hj
      split at hj
      · cases hj
        exact hsilent
      · exact hall j tj hj huj

/-- A row is written, and not with `CONNECTED`. -/
theorem Records.setConnection (h : s.Records) {row : Option BrokerConnection}
    (hrow : row.any (·.status = .connected) → s.isConnected userId) :
    (s.setConnection userId row).Records := by
  refine ⟨fun u hbarred => ?_, h.kept⟩
  refine (h.waits u hbarred).imp_right fun ⟨hclosed, hall⟩ => ⟨?_, hall⟩
  unfold isConnected FeedRun.setConnection
  dsimp only
  rw [Function.update_apply]
  split
  · rename_i hu
    subst hu
    by_contra hopen
    rw [hrow (by simpa using hopen)] at hclosed
    cases hclosed
  · exact hclosed

end FeedRun

/-! ## What a step keeps -/

namespace FeedRun

variable {s : FeedRun} {userId : Uuid} {i : ℕ} {t : FeedTask} {a : FeedAction}

/-- What a task that goes on does besides. -/
inductive ResumeMove (s : FeedRun) (i : ℕ) (t : FeedTask) (a : FeedAction) : FeedRun → Prop
  | plain (hstep : t.due.isSome → (t.step a).due.isSome) :
    ResumeMove s i t a (s.setTask i (t.step a))
  | lost (hdue : t.due.isSome) (hfail : a = .fail) : ResumeMove s i t a (s.setTask i (t.step a))
  | attempt (hphase : t.phase = .announcing) (hcancelled : ¬ t.cancelled) :
    ResumeMove s i t a ((s.setTask i (t.step a)).note (.attempted t.userId))
  | fatal (code : ℕ) (hphase : t.phase = .opened) (hdue : (t.step a).due = some code) :
    ResumeMove s i t a ((s.setTask i (t.step a)).note (.fatal t.userId code))
  | record (code : ℕ) (hdue : t.due = some code) (hgo : a = .go) :
    ResumeMove s i t a ((s.setTask i (t.step a)).record t.userId code)

theorem resume_move (s : FeedRun) (i : ℕ) (t : FeedTask) (a : FeedAction) :
    ResumeMove s i t a (s.resume i t a) := by
  -- what is due is only settled where the record is made or lost
  have hplain : (∀ code, t.due = some code → a ≠ .go) → a ≠ .fail ∨ t.due = none →
      ResumeMove s i t a (s.setTask i (t.step a)) := by
    intro hgo hfail
    refine .plain fun hdue => ?_
    obtain ⟨code, hcode⟩ := Option.isSome_iff_exists.1 hdue
    rw [FeedTask.step_of_due hcode]
    cases a with
    | go => exact absurd rfl (hgo code hcode)
    | fail => exact hfail.elim (fun h => absurd rfl h) fun h => by rw [h] at hcode; cases hcode
    | disconnect _ => exact hdue
  have hnone : t.due = none → ResumeMove s i t a (s.setTask i (t.step a)) := fun h =>
    hplain (fun code hcode => by rw [h] at hcode; cases hcode) (.inr h)
  unfold resume
  dsimp only
  split
  · rename_i hcancelled
    exact hnone (by unfold FeedTask.due; split <;> simp [hcancelled])
  rename_i hcancelled
  split
  · rename_i hphase
    exact .attempt hphase hcancelled
  · rename_i code hphase
    split
    · rename_i hcode
      refine .fatal code hphase (FeedTask.due_of_phase ?_ hcode ?_)
      · simp [FeedTask.step, hcancelled, hphase]
      · simp [FeedTask.step, hcancelled, hphase]
    · exact hnone (by unfold FeedTask.due; rw [hphase])
  · rename_i code hphase
    split
    · rename_i hcode
      exact .record code (FeedTask.due_of_phase hphase hcode hcancelled) rfl
    · rename_i hcode
      exact hnone (by unfold FeedTask.due; rw [hphase]; exact if_neg fun h => hcode h.1)
  · rename_i action _ _ hannounce hopened hclosing
    by_cases hfail : action = .fail
    · by_cases hdue : t.due.isSome
      · exact .lost hdue hfail
      · exact hnone (by simpa using hdue)
    · refine hplain (fun code hcode hgo => ?_) (.inl hfail)
      exact hclosing code (FeedTask.due_eq hcode).1 hgo

theorem Sockets.resume (h : s.Sockets) (ht : s.tasks i = some t) (a : FeedAction) :
    (s.resume i t a).Sockets := by
  have hset : (s.setTask i (t.step a)).Sockets :=
    h.setTask ht (t.step_userId a) (fun hr => FeedTask.isRetired_step hr a) FeedTask.isOpen_step
  have hmove := resume_move s i t a
  generalize s.resume i t a = s' at hmove ⊢
  cases hmove with
  | plain | lost | attempt | fatal | record => exact hset.of_same rfl rfl rfl

theorem Records.resume (h : s.Records) (hsockets : s.Sockets) (ht : s.tasks i = some t)
    (hfail : a = .fail → ¬ s.forgets t) : (s.resume i t a).Records := by
  have huser := t.step_userId a
  have hmove := resume_move s i t a
  generalize s.resume i t a = s' at hmove ⊢
  cases hmove with
  | plain hstep => exact h.setTask ht huser hstep fun hs => FeedTask.isSilent_step hs a
  | lost hdue hf =>
    obtain ⟨code, hcode⟩ := Option.isSome_iff_exists.1 hdue
    refine h.lose hsockets ht hdue (hfail hf) ?_
    subst hf
    rw [FeedTask.step_of_due hcode]
    simp [FeedTask.isSilent, FeedTask.isRetired]
  | attempt hphase hcancelled =>
    have hretired : ¬ t.isRetired := by simp [FeedTask.isRetired, hphase, hcancelled]
    have hactive : ¬ t.isSilent := by simp [FeedTask.isSilent, hretired, hphase]
    have hnone : t.due = none := by unfold FeedTask.due; rw [hphase]
    have hset : (s.setTask i (t.step a)).Records :=
      h.setTask ht huser (fun hd => by rw [hnone] at hd; cases hd) fun hs =>
        FeedTask.isSilent_step hs a
    have hfree : ¬ barred t.userId s.notes := by
      intro hbarred
      rcases h.waits _ hbarred with ⟨j, tj, hj, hu, hd⟩ | ⟨-, hall⟩
      · have hji : i ≠ j := by
          rintro rfl
          cases hj.symm.trans ht
          rw [hnone] at hd
          cases hd
        exact hactive (hsockets.isSilent_of_due hj hd ht hu.symm hji)
      · exact hactive (hall i t ht rfl)
    refine ⟨hset.waits, fun after u before hnotes => ?_⟩
    cases after with
    | nil =>
      obtain ⟨hhead, rfl⟩ := List.cons.inj hnotes
      cases hhead
      exact hfree
    | cons n after => exact h.kept after u before (List.cons.inj hnotes).2
  | fatal code hphase hdue =>
    have hset : (s.setTask i (t.step a)).Records :=
      h.setTask ht huser (fun hd => by rw [hdue]; rfl) fun hs => FeedTask.isSilent_step hs a
    refine ⟨fun u hbarred => ?_, fun after u before hnotes => ?_⟩
    · by_cases hu : t.userId = u
      · exact .inl ⟨i, t.step a, Function.update_self .., huser.trans hu, by rw [hdue]; rfl⟩
      · have hold : barred u s.notes := by
          change (decide (t.userId = u ∨ barred u s.notes = true)) = true at hbarred
          exact (of_decide_eq_true hbarred).resolve_left hu
        exact hset.waits u hold
    · cases after with
      | nil => cases (List.cons.inj hnotes).1
      | cons n after => exact h.kept after u before (List.cons.inj hnotes).2
  | record code hdue hgo =>
    have hsome : t.due.isSome := by rw [hdue]; rfl
    have hrecorded : t.step a = t.into .recorded := by rw [FeedTask.step_of_due hdue, hgo]
    have hsilent : (t.step a).isSilent := by
      rw [hrecorded]
      simp [FeedTask.isSilent]
    -- the record is written first, and nothing is lost any more
    have hwritten : (s.record t.userId code).Records := by
      refine h.setConnection fun hrow => ?_
      cases hrow' : s.connections t.userId with
      | none => simp [hrow'] at hrow
      | some row =>
        simp only [hrow', Option.map_some, Option.any_some] at hrow
        split at hrow <;> cases hrow
    have hclosed : (s.record t.userId code).isConnected t.userId = false := by
      unfold FeedRun.record isConnected FeedRun.setConnection
      dsimp only
      rw [Function.update_self]
      cases s.connections t.userId with
      | none => rfl
      | some row =>
        simp only [Option.map_some, Option.any_some]
        split <;> rfl
    have hrow : (s.record t.userId code).Sockets := hsockets.of_same rfl rfl rfl
    exact hwritten.lose hrow ht hsome (by simp [forgets, hclosed]) hsilent

end FeedRun

/-! ## Passes -/

section Passes

variable {lib : FeedLibraries} {s : FeedRun} {userId : Uuid} {now : Time}

/-- Loading a user writes no row `CONNECTED`. -/
theorem loadUser_connected {connection : Option BrokerConnection}
    {instruments : List FeedInstrument} {instrumentIds : List Uuid}
    (h : (loadUser lib now connection instruments instrumentIds).1.any (·.status = .connected)) :
    connection.any (·.status = .connected) := by
  unfold loadUser at h
  split at h
  · exact h
  · rename_i connected hconnected
    obtain ⟨hsome, hstatus⟩ := Option.filter_eq_some_iff.1 hconnected
    rw [hsome]
    simpa using hstatus

/-- Only a `CONNECTED` row is loaded. -/
theorem loadUser_some {connection : Option BrokerConnection} {instruments : List FeedInstrument}
    {instrumentIds : List Uuid} {loaded : LoadedUser}
    (h : (loadUser lib now connection instruments instrumentIds).2 = some loaded) :
    connection.any (·.status = .connected) := by
  unfold loadUser at h
  split at h
  · cases h
  · rename_i connected hconnected
    obtain ⟨hsome, hstatus⟩ := Option.filter_eq_some_iff.1 hconnected
    rw [hsome]
    simpa using hstatus

theorem FeedRun.isConnected_of_start {loaded : LoadedUser}
    (h : s.passMove lib userId now = .start loaded) : s.isConnected userId := by
  unfold FeedRun.passMove at h
  split at h
  · cases h
  split at h
  · cases h
  split at h
  · cases h
  split at h
  · cases h
  split at h
  · cases h
  split at h
  · cases h
  rename_i hloaded
  exact loadUser_some hloaded

theorem FeedRun.sessionOf_of_keep {entry : FeedEntry} {loaded : LoadedUser}
    (h : s.passMove lib userId now = .keep entry loaded) : s.sessionOf userId = some entry := by
  unfold FeedRun.passMove at h
  repeat' split at h
  all_goals first | cases h; assumption | cases h

end Passes

namespace FeedRun

variable {s : FeedRun} {userId : Uuid}

theorem Records.drop (h : s.Records) (hsockets : s.Sockets)
    (hforgets : ∀ entry ∈ s.sessionOf userId, ∀ t ∈ s.tasks entry.task, ¬ s.forgets t) :
    (s.drop userId).Records := by
  unfold FeedRun.drop
  split
  · exact h
  rename_i entry hentry
  obtain ⟨hmem, huserId⟩ := mem_of_sessionOf hentry
  obtain ⟨t, ht, hu⟩ := hsockets.owned entry hmem
  have hsilent := FeedTask.isSilent_of_isRetired t.isRetired_cancel
  have hset : (s.setTask entry.task t.cancel).Records := by
    by_cases hdue : t.due.isSome
    · exact h.lose hsockets ht hdue (hforgets entry hentry t ht) hsilent
    · exact h.setTask ht t.cancel_userId (fun hd => absurd hd hdue) fun _ => hsilent
  rw [ht, Option.map_some]
  exact ⟨hset.waits, hset.kept⟩

/-- A session starts where no code is to be recorded. -/
theorem Records.start (h : s.Records) (hsockets : s.Sockets) (hfree : ¬ barred userId s.notes)
    (loaded : LoadedUser) : (s.start userId loaded).Records := by
  refine ⟨fun u hbarred => ?_, h.kept⟩
  have hne : u ≠ userId := fun hu => hfree (hu ▸ hbarred)
  refine (h.waits u hbarred).imp ?_ fun ⟨hrow, hall⟩ => ⟨hrow, fun j tj hj hu => ?_⟩
  · rintro ⟨i, t, ht, hu, hd⟩
    exact ⟨i, t, (Function.update_of_ne (hsockets.fresh i t ht).ne _ _).trans ht, hu, hd⟩
  · change Function.update s.tasks s.made _ j = some tj at hj
    rw [Function.update_apply] at hj
    split at hj
    · cases hj
      exact absurd hu.symm hne
    · exact hall j tj hj hu

theorem tasks_drop {i : ℕ} {t : FeedTask} (h : (s.drop userId).tasks i = some t) :
    ∃ t', s.tasks i = some t' ∧ t'.userId = t.userId ∧ t'.phase = t.phase := by
  unfold FeedRun.drop at h
  split at h
  · exact ⟨t, h, rfl, rfl⟩
  · dsimp only at h
    rw [Function.update_apply] at h
    split at h
    · rename_i hi
      obtain ⟨t', ht', rfl⟩ := Option.map_eq_some_iff.1 h
      exact ⟨t', hi ▸ ht', (t'.cancel_userId).symm, (t'.cancel_phase).symm⟩
    · exact ⟨t, h, rfl, rfl⟩

end FeedRun

/-! ## Every run -/

section Runs

variable {lib : FeedLibraries} {s : FeedRun} {userId : Uuid} {now : Time}

/-- Where a pass may start a session, none has its socket open. -/
theorem Unhurried.closed {loaded : LoadedUser} (h : Unhurried lib s (.pass userId now))
    (hsockets : s.Sockets) (hmove : s.passMove lib userId now = .start loaded) :
    ∀ i t, s.tasks i = some t → t.userId = userId → ¬ t.phase.isOpen := by
  intro i t ht
  rw [Unhurried, hmove] at h
  exact h i (hsockets.fresh i t ht) t ht

theorem sound_visit (hsockets : s.Sockets) (hrecords : s.Records)
    (h : Unhurried lib s (.pass userId now)) :
    (s.visit lib userId now).Sockets ∧ (s.visit lib userId now).Records := by
  unfold FeedRun.visit
  cases hmove : s.passMove lib userId now with
  | skip => exact ⟨hsockets, hrecords⟩
  | drop =>
    rw [Unhurried, hmove] at h
    have hdropped := hsockets.drop userId
    have hkept := hrecords.drop hsockets h
    exact ⟨hdropped.of_same rfl rfl rfl, hkept.waits, hkept.kept⟩
  | refuse =>
    let instrumentIds := (s.pass.visits.lookup userId).getD []
    let row := (loadUser lib now (s.connections userId) s.instruments instrumentIds).1
    have hwritten : (s.setConnection userId row).Records :=
      hrecords.setConnection loadUser_connected
    exact ⟨hsockets.of_same rfl rfl rfl, hwritten.waits, hwritten.kept⟩
  | start loaded =>
    have hclosed := h.closed hsockets hmove
    -- a session that has a code to record has its socket open
    have hidle : ∀ i t, s.tasks i = some t → t.userId = userId → ¬ t.due.isSome :=
      fun i t ht hu hd => hclosed i t ht hu (FeedTask.isOpen_of_due hd)
    have hfree : ¬ barred userId s.notes := by
      intro hbarred
      rcases hrecords.waits userId hbarred with ⟨i, t, ht, hu, hd⟩ | ⟨hrow, -⟩
      · exact hidle i t ht hu hd
      · rw [FeedRun.isConnected_of_start hmove] at hrow
        cases hrow
    have hdropped := hsockets.drop userId
    have hkept : (s.drop userId).Records := hrecords.drop hsockets fun entry he t ht hforgets => by
      simp only [FeedRun.forgets, Bool.and_eq_true] at hforgets
      exact hidle entry.task t ht (hsockets.entry_task he ht) hforgets.1.1
    have hnotes : (s.drop userId).notes = s.notes := by
      unfold FeedRun.drop
      split <;> rfl
    have hstarted := hdropped.start (FeedRun.sessionOf_drop s userId) (fun i t ht hu hopen => by
      obtain ⟨t', ht', hu', hphase⟩ := FeedRun.tasks_drop ht
      exact hclosed i t' ht' (hu'.trans hu) (hphase ▸ hopen)) loaded
    have hnoted := hkept.start hdropped (hnotes ▸ hfree) loaded
    exact ⟨hstarted.of_same rfl rfl rfl, hnoted.waits, hnoted.kept⟩
  | keep entry loaded =>
    obtain ⟨hmem, -⟩ := FeedRun.mem_of_sessionOf (FeedRun.sessionOf_of_keep hmove)
    obtain ⟨t, ht, -⟩ := hsockets.owned entry hmem
    let t' : FeedTask := { t with desired := loaded.subscriptions }
    have hset : (s.setTask entry.task t').Sockets := hsockets.setTask ht rfl id .inl
    have hkept : (s.setTask entry.task t').Records := hrecords.setTask ht rfl id id
    have heq : s.replaceSubscriptions entry.task loaded.subscriptions =
        s.setTask entry.task t' := by
      unfold FeedRun.replaceSubscriptions FeedRun.setTask
      rw [ht]
      rfl
    dsimp only
    rw [heq]
    exact ⟨hset.of_same rfl rfl rfl, hkept.waits, hkept.kept⟩

/-- **Step lemma**: an unhurried step keeps both invariants. -/
theorem sound_feedStep {e : FeedEvent} (hsockets : s.Sockets) (hrecords : s.Records)
    (h : Unhurried lib s e) : (feedStep lib s e).Sockets ∧ (feedStep lib s e).Records := by
  have hsame : ∀ {s' : FeedRun}, s'.sessions = s.sessions → s'.tasks = s.tasks →
      s'.made = s.made → s'.connections = s.connections → s'.notes = s.notes →
      s'.Sockets ∧ s'.Records := by
    intro s' hsessions htasks hmade hconnections hnotes
    refine ⟨hsockets.of_same hsessions htasks hmade, ?_⟩
    cases s'
    cases htasks
    cases hconnections
    cases hnotes
    exact ⟨hrecords.waits, hrecords.kept⟩
  cases e with
  | poll grouped =>
    rw [feedStep]
    split
    · exact hsame rfl rfl rfl rfl rfl
    · exact ⟨hsockets, hrecords⟩
  | pass userId now => exact sound_visit hsockets hrecords h
  | abandon => exact hsame rfl rfl rfl rfl rfl
  | writeInstruments rows => exact hsame rfl rfl rfl rfl rfl
  | task i a =>
    rw [feedStep]
    cases ht : s.tasks i with
    | none => exact ⟨hsockets, hrecords⟩
    | some t =>
      refine ⟨hsockets.resume ht a, hrecords.resume hsockets ht ?_⟩
      rintro rfl
      exact h t ht
  | write userId row =>
    rw [feedStep]
    split
    · refine ⟨hsockets.of_same rfl rfl rfl, fun u hbarred => ?_, fun after u before hnotes => ?_⟩
      · have hold : userId ≠ u ∧ barred u s.notes := of_decide_eq_true hbarred
        refine (hrecords.waits u hold.2).imp_right fun ⟨hrow, hall⟩ => ⟨?_, hall⟩
        change (Function.update s.connections userId row u).any _ = false
        rw [Function.update_of_ne hold.1.symm]
        exact hrow
      · cases after with
        | nil => cases (List.cons.inj hnotes).1
        | cons n after => exact hrecords.kept after u before (List.cons.inj hnotes).2
    · rename_i hclosed
      have hwritten : (s.setConnection userId row).Records :=
        hrecords.setConnection fun hrow => absurd hrow hclosed
      exact ⟨hsockets.of_same rfl rfl rfl, hwritten⟩

end Runs

/-- **One feed connection.**  In every run of unhurried steps at most one socket of
each user is open, and after a fatal code no connection is attempted before the row
has been written `CONNECTED`. -/
theorem one_feed_per_user {lib : FeedLibraries} {connections : Uuid → Option BrokerConnection}
    {instruments : List FeedInstrument} {events : List FeedEvent} {s : FeedRun}
    (h : Run (Guarded (Unhurried lib) (Steps (feedStep lib)))
      { connections := connections, instruments := instruments } events s) :
    s.OneSocket ∧ s.FatalKept := by
  have hstart : FeedRun.Sockets { connections := connections, instruments := instruments } ∧
      FeedRun.Records { connections := connections, instruments := instruments } := by
    refine ⟨⟨?_, ?_, ?_, ?_, ?_⟩, ?_, ?_⟩
    · exact fun i t ht => nomatch ht
    · exact fun entry he => absurd he List.not_mem_nil
    · exact fun i t ht => nomatch ht
    · exact fun i t entry ht => nomatch ht
    · exact fun i j t t' ht => nomatch ht
    · exact fun u hbarred => nomatch hbarred
    · exact fun after u before hnotes => absurd hnotes (by simp)
  have hsound : s.Sockets ∧ s.Records :=
    h.invariant (P := fun s => s.Sockets ∧ s.Records) hstart fun s e t hs ⟨hunhurried, ht⟩ =>
      ht ▸ sound_feedStep hs.1 hs.2 hunhurried
  exact ⟨hsound.1.single, hsound.2.fatalKept⟩

/-! ### Three runs -/

def feedLibraries : FeedLibraries where
  upper := upper
  strip text := text
  sha256 c := c.1 ++ "/" ++ c.2

def feedConnection (accessToken : String) : BrokerConnection where
  id := 3
  userId := 1
  broker := .dhan
  brokerClientId := some "client"
  credentials := ⟨some "client", some accessToken⟩
  status := .connected
  tokenExpiresAt := none

/-- A user with a connection, and an instrument. -/
def feedStart : FeedRun where
  connections userId := if userId = 1 then some (feedConnection "first") else none
  instruments := [{ id := 7, exchange := "NSE", segment := "EQ", token := .scalar ⟨"1333", true⟩ }]

/-- A pass with this user, subscribed to the instrument. -/
def passFor (now : Time) : List FeedEvent := [.poll [(1, [7])], .pass 1 now]

/-- A session gets as far as an open socket. -/
def openSocket (i : ℕ) : List FeedEvent := [.task i .go, .task i .go, .task i .go]

/-- A fatal code is recorded, the user connects again, and the next session starts. -/
def connectedAgain : List FeedEvent :=
  passFor 0 ++ openSocket 0 ++ [.task 0 (.disconnect 807), .task 0 .go, .task 0 .go,
    .write 1 (some (feedConnection "second"))] ++ passFor 2000000 ++ openSocket 1

def feedLoaded (accessToken : String) : LoadedUser where
  fingerprint := "client/" ++ accessToken
  clientId := "client"
  accessToken := accessToken
  subscriptions := [⟨7, "NSE_EQ", 1, "1333"⟩]

theorem unhurried_of_start {lib : FeedLibraries} {s : FeedRun} {userId : Uuid} {now : Time}
    {loaded : LoadedUser} (hmove : s.passMove lib userId now = .start loaded)
    (hclosed : ∀ i < s.made, ∀ t ∈ s.tasks i, t.userId = userId → ¬ t.phase.isOpen) :
    Unhurried lib s (.pass userId now) := by
  rw [Unhurried, hmove]
  exact hclosed

theorem one_feed_per_user_connectedAgain :
    (connectedAgain.foldl (feedStep feedLibraries) feedStart).OneSocket ∧
      (connectedAgain.foldl (feedStep feedLibraries) feedStart).FatalKept := by
  have hrun : Run (Guarded (Unhurried feedLibraries) (Steps (feedStep feedLibraries))) feedStart
      connectedAgain (connectedAgain.foldl (feedStep feedLibraries) feedStart) := by
    refine .cons ⟨trivial, rfl⟩ (.cons ⟨?_, rfl⟩ (.cons ⟨trivial, rfl⟩ (.cons ⟨trivial, rfl⟩
      (.cons ⟨trivial, rfl⟩ (.cons ⟨trivial, rfl⟩ (.cons ⟨trivial, rfl⟩ (.cons ⟨trivial, rfl⟩
      (.cons ⟨trivial, rfl⟩ (.cons ⟨trivial, rfl⟩ (.cons ⟨?_, rfl⟩ (.cons ⟨trivial, rfl⟩
      (.cons ⟨trivial, rfl⟩ (.single ⟨trivial, rfl⟩)))))))))))))
    · exact unhurried_of_start (show _ = PassMove.start (feedLoaded "first") by decide +kernel)
        fun i hi => absurd hi (Nat.not_lt_zero i)
    · exact unhurried_of_start (show _ = PassMove.start (feedLoaded "second") by decide +kernel)
        (by decide +kernel)
  exact one_feed_per_user hrun

/-- New credentials: the next session opens its socket while the first closes its
own. -/
def newCredentials : List FeedEvent :=
  passFor 0 ++ openSocket 0 ++ [.write 1 (some (feedConnection "second"))] ++ passFor 2000000 ++
    [.task 0 .go] ++ openSocket 1

/-- A session is cancelled while it closes its socket after a fatal code. -/
def lostRecord : List FeedEvent :=
  passFor 0 ++ openSocket 0 ++ [.task 0 (.disconnect 807), .poll [], .pass 1 2000000,
    .task 0 .go, .task 0 .go] ++ passFor 4000000 ++ openSocket 1

/-- **Two sockets, and an attempt after a fatal code.** -/
theorem feed_opened_twice :
    ¬ (newCredentials.foldl (feedStep feedLibraries) feedStart).OneSocket ∧
      ¬ (lostRecord.foldl (feedStep feedLibraries) feedStart).FatalKept := by
  refine ⟨fun hone => ?_, fun hkept => ?_⟩
  · have hfirst : ((newCredentials.foldl (feedStep feedLibraries) feedStart).tasks 0).map
        (fun t => (t.userId, t.phase)) = some (1, .closing .cancelled) := by decide +kernel
    have hsecond : ((newCredentials.foldl (feedStep feedLibraries) feedStart).tasks 1).map
        (fun t => (t.userId, t.phase)) = some (1, .opened) := by decide +kernel
    obtain ⟨t, ht, heq⟩ := Option.map_eq_some_iff.1 hfirst
    obtain ⟨t', ht', heq'⟩ := Option.map_eq_some_iff.1 hsecond
    obtain ⟨hu, hphase⟩ := Prod.mk.inj heq
    obtain ⟨hu', hphase'⟩ := Prod.mk.inj heq'
    exact absurd (hone 0 1 t t' ht ht' (hu.trans hu'.symm) (by rw [hphase]; rfl)
      (by rw [hphase']; rfl)) Nat.zero_ne_one
  · have hmem := hkept [] [] [.attempted 1] 1 807 (by decide +kernel)
    cases hmem

end GnkAlgo
