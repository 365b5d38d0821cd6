import EventLedger.EventGateway.RateLimit
import Mathlib.Tactic.Linarith
import Mathlib.Tactic.NormNum

namespace EventLedger.EventGateway
open Library

/-- The number of allowed checks of one key at the times of an interval. -/
def allowedWithin (key : String) (interval : Rat → Prop) [DecidablePred interval]
    (trace : Trace SlidingWindowRateLimiter Check) : Nat :=
  (allowedTimes key trace).countP fun time => decide (interval time)

/-- A check counts the allowed checks of its key in the window that ends with it. -/
def inWindow (windowSeconds : Rat) (check : Check)
    (earlier : Trace SlidingWindowRateLimiter Check) : Nat :=
  allowedWithin check.key (fun time => check.now - windowSeconds < time ∧ time ≤ check.now) earlier

/-- A decision follows the full history when the checks in its window determine it. -/
structure FollowsHistory (limit : Int) (windowSeconds : Rat)
    (earlier : Trace SlidingWindowRateLimiter Check)
    (transition : Transition SlidingWindowRateLimiter Check) : Prop where
  allowed : (decided transition).allowed = true ↔
    (inWindow windowSeconds transition.action earlier : Int) < limit
  remaining : (decided transition).remaining = if (decided transition).allowed
    then limit - inWindow windowSeconds transition.action earlier - 1 else 0
  refused : (decided transition).allowed = false →
    (inWindow windowSeconds transition.action earlier : Int) = limit

variable {limiter last : SlidingWindowRateLimiter} {key : String} {now : Rat}
  {trace earlier later : Trace SlidingWindowRateLimiter Check}
  {transition : Transition SlidingWindowRateLimiter Check}

section OnePerTen

/-- One check in ten seconds is allowed. -/
def onePerTen : SlidingWindowRateLimiter := ⟨1, 10, fun _ => [], by decide, by decide +kernel⟩

def SlidingWindowRateLimiter.taken (limiter : SlidingWindowRateLimiter) (check : Check) :
    Transition SlidingWindowRateLimiter Check :=
  ⟨limiter, check, (limiter.check check.key check.now).2⟩

def firstCheck : Transition SlidingWindowRateLimiter Check := onePerTen.taken ⟨"a", 0⟩
def otherCheck : Transition SlidingWindowRateLimiter Check := firstCheck.after.taken ⟨"b", 2⟩
def refusedCheck : Transition SlidingWindowRateLimiter Check := otherCheck.after.taken ⟨"a", 4⟩
def refusedAgain : Transition SlidingWindowRateLimiter Check := refusedCheck.after.taken ⟨"a", 9⟩
def allowedAgain : Transition SlidingWindowRateLimiter Check := refusedAgain.after.taken ⟨"a", 10⟩

theorem onePerTen_created : SlidingWindowRateLimiter.create 1 10 = some onePerTen := by
  have positive : (1 : Int) ≤ 1 ∧ (0 : Rat) < 10 := ⟨le_rfl, by norm_num⟩
  rw [SlidingWindowRateLimiter.create, dif_pos positive]
  rfl

theorem onePerTen_runs : (rateLimiter onePerTen).Runs onePerTen allowedAgain.after
    ([firstCheck, otherCheck] ++ refusedCheck :: ([refusedAgain] ++ [allowedAgain])) := by
  have runs : (rateLimiter onePerTen).Runs onePerTen allowedAgain.after
      ([] ++ [firstCheck] ++ [otherCheck] ++ [refusedCheck] ++ [refusedAgain] ++ [allowedAgain]) :=
    .step _ (.step _ (.step _ (.step _ (.step _ .refl rfl) rfl) rfl) rfl) rfl
  exact runs

theorem onePerTen_ordered :
    Nondecreasing ([firstCheck, otherCheck] ++ refusedCheck :: ([refusedAgain] ++ [allowedAgain])) := by
  simp [Nondecreasing, firstCheck, otherCheck, refusedCheck, refusedAgain, allowedAgain,
    SlidingWindowRateLimiter.taken]
  norm_num

end OnePerTen

section Decisions
variable {limit : Int} {windowSeconds : Rat}

theorem allowedWithin_append {interval : Rat → Prop} [DecidablePred interval] :
    allowedWithin key interval (earlier ++ later) =
      allowedWithin key interval earlier + allowedWithin key interval later := by
  rw [allowedWithin, allowedTimes_append, List.countP_append, allowedWithin, allowedWithin]

/-- One check adds at most one allowed time, and only when it is an allowed check of the key. -/
theorem allowedWithin_single {interval : Rat → Prop} [DecidablePred interval]
    (positive : 0 < allowedWithin key interval [transition]) :
    transition.action.key = key ∧ (decided transition).allowed = true ∧
      interval transition.action.now ∧ allowedWithin key interval [transition] = 1 := by
  have once : (allowedTimes key [transition]).length ≤ 1 := by
    rw [allowedTimes, List.length_map]
    exact List.length_filter_le _ [transition]
  obtain ⟨time, member, within⟩ := List.countP_pos_iff.mp positive
  obtain ⟨only, found, rfl⟩ := List.mem_map.mp member
  obtain ⟨single, counted⟩ := List.mem_filter.mp found
  obtain rfl := List.mem_singleton.mp single
  rw [Bool.and_eq_true] at counted
  refine ⟨of_decide_eq_true counted.1, counted.2, of_decide_eq_true within, ?_⟩
  exact le_antisymm (le_trans List.countP_le_length once) positive

/-- The window of a check that comes last holds what the check counts. -/
theorem inWindow_eq (latest : ∀ earlier ∈ trace, earlier.action.now ≤ transition.action.now) :
    inWindow windowSeconds transition.action trace =
      (recent (allowedTimes transition.action.key trace)
        (transition.action.now - windowSeconds)).length := by
  rw [inWindow, allowedWithin, List.countP_eq_length_filter, recent]
  refine congrArg List.length (List.filter_congr fun time member => ?_)
  obtain ⟨earlier, found, rfl⟩ := exists_of_mem_allowedTimes member
  exact decide_eq_decide.mpr (and_iff_left (latest earlier found))

namespace KeepsHistory

/-- A check sees exactly the allowed times of its window. -/
theorem kept_eq (held : KeepsHistory limiter last trace)
    (latest : ∀ earlier ∈ trace, earlier.action.now ≤ now) (key : String) :
    last.kept key now = recent (allowedTimes key trace) (now - limiter.windowSeconds) := by
  rw [SlidingWindowRateLimiter.kept, held.windowSeconds]
  exact (held.remembers key).counted now latest

/-- A window is never fuller than the limit. -/
theorem length_kept_le (held : KeepsHistory limiter last trace) (key : String) (now : Rat) :
    ((last.kept key now).length : Int) ≤ limiter.limit :=
  le_trans (Int.ofNat_le.mpr (List.length_filter_le ..)) (held.remembers key).room

theorem followsHistory (held : KeepsHistory limiter transition.before trace)
    (latest : ∀ earlier ∈ trace, earlier.action.now ≤ transition.action.now) :
    FollowsHistory limiter.limit limiter.windowSeconds trace transition := by
  have sorted := (held.remembers transition.action.key).sorted
  have room := held.length_kept_le transition.action.key transition.action.now
  have counted : inWindow limiter.windowSeconds transition.action trace = _ := inWindow_eq latest
  rw [← held.kept_eq latest] at counted
  rw [← held.limit] at room ⊢
  rcases lt_or_eq_of_le room with free | full
  · obtain ⟨allowed, remaining, _⟩ := SlidingWindowRateLimiter.check_allowed sorted free
    refine ⟨?_, ?_, ?_⟩
    all_goals rw [decided, allowed, counted]
    · exact iff_of_true rfl free
    · rw [remaining, if_pos rfl]
    · exact fun refused => Bool.noConfusion refused
  · obtain ⟨refused, remaining, _⟩ := SlidingWindowRateLimiter.check_refused sorted full.ge
    refine ⟨?_, ?_, ?_⟩
    all_goals rw [decided, refused, counted]
    · exact iff_of_false Bool.false_ne_true full.not_lt
    · rw [remaining, if_neg Bool.false_ne_true]
    · exact fun _ => full

end KeepsHistory
/-- Removing the checks of all other keys changes no decision of a key. -/
theorem exists_alone (runs : (rateLimiter limiter).Runs limiter last trace) (key : String) :
    ∃ lastAlone alone, (rateLimiter limiter).Runs limiter lastAlone alone ∧
      alone.map Transition.action = (trace.labelled Check.key key).map Transition.action ∧
      alone.map decided = (trace.labelled Check.key key).map decided ∧
      lastAlone.limit = last.limit ∧ lastAlone.windowSeconds = last.windowSeconds ∧
      lastAlone.requests key = last.requests key := by
  induction runs with
  | refl => exact ⟨limiter, [], .refl, rfl, rfl, rfl, rfl, rfl⟩
  | @step before _ _ action _ taken ih =>
      obtain ⟨lastAlone, alone, runs, actions, decisions, limit, windowSeconds, queue⟩ := ih
      obtain rfl := Option.some.inj taken
      obtain ⟨timestamps, effect⟩ := before.check_setRequests action.key action.now
      by_cases same : action.key = key
      · subst same
        obtain ⟨decision, after⟩ :=
          SlidingWindowRateLimiter.check_congr limit windowSeconds queue action.now
        obtain ⟨alonestamps, aloneEffect⟩ := lastAlone.check_setRequests action.key action.now
        refine ⟨_, _, runs.step action rfl, ?_, ?_, ?_, ?_, after⟩
        · rw [Trace.labelled_self rfl, List.map_append, List.map_append, actions]
          rfl
        · rw [Trace.labelled_self rfl, List.map_append, List.map_append, decisions]
          exact congrArg (_ ++ [·]) decision
        · rw [effect, aloneEffect, SlidingWindowRateLimiter.setRequests_limit, limit,
            SlidingWindowRateLimiter.setRequests_limit]
        · rw [effect, aloneEffect, SlidingWindowRateLimiter.setRequests_windowSeconds,
            windowSeconds, SlidingWindowRateLimiter.setRequests_windowSeconds]
      · refine ⟨lastAlone, alone, runs, ?_, ?_, ?_⟩
        · rw [Trace.labelled_of_ne same, actions]
        · rw [Trace.labelled_of_ne same, decisions]
        · rw [effect, SlidingWindowRateLimiter.setRequests_of_ne _ (Ne.symm same)]
          exact ⟨limit, windowSeconds, queue⟩

/-- An allowed check is one of fewer than limit allowed checks in its window. -/
theorem allowedWithin_lt (held : KeepsHistory limiter transition.before trace)
    (latest : ∀ earlier ∈ trace, earlier.action.now ≤ transition.action.now)
    (allowed : (decided transition).allowed = true) {interval : Rat → Prop}
    [DecidablePred interval]
    (close : ∀ time, interval time → transition.action.now - limiter.windowSeconds < time) :
    (allowedWithin transition.action.key interval trace : Int) < limiter.limit := by
  refine lt_of_le_of_lt (Int.ofNat_le.mpr ?_) ((held.followsHistory latest).allowed.mp allowed)
  refine List.countP_mono_left fun time member within => ?_
  obtain ⟨earlier, found, rfl⟩ := exists_of_mem_allowedTimes member
  exact decide_eq_true ⟨close _ (of_decide_eq_true within), latest earlier found⟩

/-- One more check keeps the bound on the times that lie less than a window apart. -/
theorem allowedWithin_concat_le (held : KeepsHistory limiter transition.before trace)
    (latest : ∀ earlier ∈ trace, earlier.action.now ≤ transition.action.now)
    {interval : Rat → Prop} [DecidablePred interval]
    (close : ∀ first second, interval first → interval second →
      second - limiter.windowSeconds < first)
    (bound : (allowedWithin key interval trace : Int) ≤ limiter.limit) :
    (allowedWithin key interval (trace ++ [transition]) : Int) ≤ limiter.limit := by
  rw [allowedWithin_append]
  rcases Nat.eq_zero_or_pos (allowedWithin key interval [transition]) with none | positive
  · rwa [none]
  · obtain ⟨rfl, allowed, within, one⟩ := allowedWithin_single positive
    have room := allowedWithin_lt held latest allowed fun time inside => close time _ inside within
    rw [one]
    omega

/-- A key has at most limit allowed checks at times that lie less than a window apart. -/
theorem allowedWithin_le
    (created : SlidingWindowRateLimiter.create limit windowSeconds = some limiter)
    (runs : (rateLimiter limiter).Runs limiter last trace) (ordered : Nondecreasing trace)
    (key : String) {interval : Rat → Prop} [DecidablePred interval]
    (close : ∀ first second, interval first → interval second → second - windowSeconds < first) :
    (allowedWithin key interval trace : Int) ≤ limit := by
  obtain ⟨rfl, rfl, _⟩ := SlidingWindowRateLimiter.create_spec created
  induction runs with
  | refl => exact le_trans zero_le_one limiter.limitPositive
  | step action runs taken ih =>
      obtain ⟨past, _, latest⟩ := List.pairwise_append.mp ordered
      exact allowedWithin_concat_le (keepsHistory created runs past)
        (fun check member => latest check member _ (List.mem_singleton_self _)) close (ih past)

/-- Every decision is the one that the history of its key demands, no other key influences it, and
no window of time holds more than limit allowed checks of a key. -/
theorem limiter_follows_history
    (created : SlidingWindowRateLimiter.create limit windowSeconds = some limiter)
    (runs : (rateLimiter limiter).Runs limiter last trace) (ordered : Nondecreasing trace) :
    (∀ earlier transition later, trace = earlier ++ transition :: later →
      FollowsHistory limit windowSeconds earlier transition) ∧
    (∀ key, ∃ lastAlone alone, (rateLimiter limiter).Runs limiter lastAlone alone ∧
      alone.map Transition.action = (trace.labelled Check.key key).map Transition.action ∧
      alone.map decided = (trace.labelled Check.key key).map decided) ∧
    ∀ key start,
      (allowedWithin key (fun time => start < time ∧ time ≤ start + windowSeconds) trace : Int)
        ≤ limit ∧
      (allowedWithin key (fun time => start ≤ time ∧ time < start + windowSeconds) trace : Int)
        ≤ limit := by
  refine ⟨fun earlier transition later split => ?_, fun key => ?_, fun key start => ⟨?_, ?_⟩⟩
  · subst split
    obtain ⟨past, _, latest⟩ := List.pairwise_append.mp ordered
    have held := keepsHistory created runs.split.1 past
    obtain ⟨rfl, rfl, _⟩ := SlidingWindowRateLimiter.create_spec created
    exact held.followsHistory fun check member =>
      latest check member transition (List.mem_cons_self ..)
  · obtain ⟨lastAlone, alone, runs, actions, decisions, _⟩ := exists_alone runs key
    exact ⟨lastAlone, alone, runs, actions, decisions⟩
  · refine allowedWithin_le created runs ordered key fun first second inside within => ?_
    linarith [inside.1, within.2]
  · refine allowedWithin_le created runs ordered key fun first second inside within => ?_
    linarith [inside.1, within.2]

/-- The refused check of the example has one allowed check of its key in its window. -/
theorem limiter_follows_history_refused :
    (decided refusedCheck).allowed = false ∧
      (inWindow 10 ⟨"a", 4⟩ [firstCheck, otherCheck] : Int) = 1 ∧
      (allowedWithin "a" (fun time => 0 < time ∧ time ≤ 0 + 10) ([firstCheck, otherCheck] ++
        refusedCheck :: ([refusedAgain] ++ [allowedAgain])) : Int) ≤ 1 := by
  obtain ⟨follows, _, within⟩ :=
    limiter_follows_history onePerTen_created onePerTen_runs onePerTen_ordered
  have refused : (decided refusedCheck).allowed = false := by decide +kernel
  exact ⟨refused, (follows _ _ _ rfl).refused refused, (within "a" 0).1⟩

section RetryAfter
variable {denied next : Transition SlidingWindowRateLimiter Check}
  {between : Trace SlidingWindowRateLimiter Check}

/-- A retry delay ends in the second in which the oldest time of the window leaves it. -/
theorem SlidingWindowRateLimiter.secondsLeft_spec {oldest : Rat}
    (inside : now - limiter.windowSeconds < oldest) :
    oldest ≤ now + limiter.secondsLeft oldest now - limiter.windowSeconds ∧
      now + limiter.secondsLeft oldest now - 1 - limiter.windowSeconds < oldest := by
  have positive : 1 ≤ ⌈oldest + limiter.windowSeconds - now⌉ :=
    Int.one_le_ceil_iff.mpr (by linarith)
  have above := Int.le_ceil (oldest + limiter.windowSeconds - now)
  have below := Int.ceil_lt_add_one (oldest + limiter.windowSeconds - now)
  rw [secondsLeft, max_eq_right positive]
  constructor
  · linarith
  · linarith

/-- A refused check waits for the oldest of exactly limit allowed times in its window. -/
theorem KeepsHistory.refused (held : KeepsHistory limiter transition.before trace)
    (latest : ∀ earlier ∈ trace, earlier.action.now ≤ transition.action.now)
    (refusal : (decided transition).allowed = false) :
    ∃ oldest rest,
      recent (allowedTimes transition.action.key trace)
        (transition.action.now - limiter.windowSeconds) = oldest :: rest ∧
      (oldest :: rest).Pairwise (· ≤ ·) ∧ ((oldest :: rest).length : Int) = limiter.limit ∧
      oldest ≤ transition.action.now + (decided transition).retryAfter - limiter.windowSeconds ∧
      transition.action.now + (decided transition).retryAfter - 1 - limiter.windowSeconds < oldest
    := by
  have sorted := (held.remembers transition.action.key).sorted
  have kept := held.kept_eq latest transition.action.key
  have room := held.length_kept_le transition.action.key transition.action.now
  have full := mt (SlidingWindowRateLimiter.check_allowed_iff sorted).mpr
    (ne_true_of_eq_false refusal)
  obtain ⟨_, _, ⟨oldest, rest, window, delay⟩, _⟩ :=
    SlidingWindowRateLimiter.check_refused sorted (not_lt.mp full)
  rw [held.limit, not_lt] at full
  have inside : oldest ∈ transition.before.kept transition.action.key transition.action.now :=
    window ▸ List.mem_cons_self ..
  have bounds := SlidingWindowRateLimiter.secondsLeft_spec (mem_recent.mp inside).2
  rw [← delay, held.windowSeconds] at bounds
  refine ⟨oldest, rest, kept ▸ window, ?_, ?_, bounds⟩
  · rw [← window]
    exact sorted.filter _
  · rw [← window]
    exact le_antisymm room full

/-- A later check sees what is left of an earlier window and what was allowed since. -/
theorem KeepsHistory.kept_later
    (held : KeepsHistory limiter next.before (earlier ++ later))
    (latest : ∀ check ∈ earlier ++ later, check.action.now ≤ next.action.now)
    (order : now ≤ next.action.now) :
    next.before.kept next.action.key next.action.now =
      recent (recent (allowedTimes next.action.key earlier) (now - limiter.windowSeconds))
          (next.action.now - limiter.windowSeconds) ++
        recent (allowedTimes next.action.key later) (next.action.now - limiter.windowSeconds) := by
  rw [held.kept_eq latest, allowedTimes_append, recent_append,
    recent_recent (sub_le_sub_right order _)]

/-- A refused check tells how long it takes until the key is allowed again, up to one second. -/
theorem retry_after_exact
    (created : SlidingWindowRateLimiter.create limit windowSeconds = some limiter)
    (runs : (rateLimiter limiter).Runs limiter last
      (earlier ++ denied :: (between ++ next :: later)))
    (ordered : Nondecreasing (earlier ++ denied :: (between ++ next :: later)))
    (refused : (decided denied).allowed = false)
    (same : next.action.key = denied.action.key) :
    (denied.action.now + (decided denied).retryAfter ≤ next.action.now →
      (∀ check ∈ between, check.action.key = denied.action.key →
        (decided check).allowed = false) → (decided next).allowed = true) ∧
    (next.action.now ≤ denied.action.now + (decided denied).retryAfter - 1 →
      (decided next).allowed = false) := by
  -- Both checks read the window of the refused one: the second sees what is left of it.
  have held := keepsHistory created runs.split.1 (List.pairwise_append.mp ordered).1
  have latest : ∀ check ∈ earlier, check.action.now ≤ denied.action.now := fun check member =>
    (List.pairwise_append.mp ordered).2.2 check member denied (List.mem_cons_self ..)
  obtain ⟨oldest, rest, window, sorted, full, freed, blocked⟩ := held.refused latest refused
  rw [← List.cons_append, ← List.append_assoc] at runs ordered
  have heldNext := keepsHistory created runs.split.1 (List.pairwise_append.mp ordered).1
  have latestNext : ∀ check ∈ earlier ++ denied :: between, check.action.now ≤ next.action.now :=
    fun check member =>
      (List.pairwise_append.mp ordered).2.2 check member next (List.mem_cons_self ..)
  have kept := heldNext.kept_later latestNext (latestNext denied (by simp))
  rw [same, window] at kept
  have decision : (decided next).allowed = true ↔ _ :=
    SlidingWindowRateLimiter.check_allowed_iff (heldNext.remembers next.action.key).sorted
  rw [same, kept, List.length_append, heldNext.limit] at decision
  refine ⟨fun late silent => ?_, fun early => ?_⟩
  · have unchanged : allowedTimes denied.action.key (denied :: between) = [] := by
      refine allowedTimes_eq_nil fun check member sameKey => ?_
      rcases List.mem_cons.mp member with rfl | member
      · exact refused
      · exact silent check member sameKey
    have fewer := length_recent_lt rest (le_trans freed (sub_le_sub_right late _))
    rw [unchanged, recent_nil, List.length_nil, Nat.add_zero] at decision
    exact decision.mpr (by omega)
  · have all := recent_eq_self sorted (lt_of_le_of_lt (sub_le_sub_right early _) blocked)
    rw [all] at decision
    exact Bool.eq_false_iff.mpr (mt decision.mp (by omega))

/-- The refused check of the example is followed by another one before the key is allowed again. -/
theorem retry_after_exact_recovered :
    (decided refusedCheck).retryAfter = 6 ∧ (decided allowedAgain).allowed = true := by
  have delay : (decided refusedCheck).retryAfter = 6 := by decide +kernel
  refine ⟨delay, (retry_after_exact onePerTen_created onePerTen_runs onePerTen_ordered
    (by decide +kernel) rfl).1 ?_ ?_⟩
  · rw [delay]
    norm_num [refusedCheck, allowedAgain, SlidingWindowRateLimiter.taken]
  · simp only [List.mem_singleton, forall_eq]
    exact fun _ => by decide +kernel

end RetryAfter
end Decisions
end EventLedger.EventGateway
