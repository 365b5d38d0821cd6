import EventLedger.Library.SlidingWindow
import EventLedger.Library.Trace
import Mathlib.Algebra.Order.Ring.Rat
import Mathlib.Data.Rat.Floor
import Mathlib.Logic.Function.Basic

namespace EventLedger.EventGateway
open Library

structure RateLimitDecision where
  allowed : Bool
  limit : Int
  remaining : Int
  retryAfter : Int
  resetAfter : Int
  deriving DecidableEq

/-- The limiter keeps the times of the allowed checks of each key. -/
structure SlidingWindowRateLimiter where
  limit : Int
  windowSeconds : Rat
  requests : String → List Rat
  limitPositive : 1 ≤ limit
  windowPositive : 0 < windowSeconds

namespace SlidingWindowRateLimiter

/-- A limiter is created with a positive limit and a positive window only. -/
def create (limit : Int) (windowSeconds : Rat) : Option SlidingWindowRateLimiter :=
  if positive : 1 ≤ limit ∧ 0 < windowSeconds then
    some ⟨limit, windowSeconds, fun _ => [], positive.1, positive.2⟩
  else none

/-- A check at the current time waits for the oldest entry to leave the window. -/
def secondsLeft (limiter : SlidingWindowRateLimiter) (oldest current : Rat) : Int :=
  max 1 ⌈oldest + limiter.windowSeconds - current⌉

def setRequests (limiter : SlidingWindowRateLimiter) (key : String) (timestamps : List Rat) :
    SlidingWindowRateLimiter :=
  { limiter with requests := Function.update limiter.requests key timestamps }

/-- A full window has an oldest entry. -/
theorem ne_nil_of_full (limiter : SlidingWindowRateLimiter) {timestamps : List Rat}
    (full : limiter.limit ≤ timestamps.length) : timestamps ≠ [] := by
  rintro rfl
  exact absurd (le_trans limiter.limitPositive full) (by decide)

/-- The length of the queue decides the check. -/
def answer (limiter : SlidingWindowRateLimiter) (key : String) (timestamps : List Rat)
    (current : Rat) : RateLimitDecision × SlidingWindowRateLimiter :=
  if full : limiter.limit ≤ timestamps.length then
    let retryAfter :=
      limiter.secondsLeft (timestamps.head (limiter.ne_nil_of_full full)) current
    (⟨false, limiter.limit, 0, retryAfter, retryAfter⟩, limiter.setRequests key timestamps)
  else
    let appended := timestamps ++ [current]
    let remaining := max 0 (limiter.limit - appended.length)
    let resetAfter := limiter.secondsLeft
      (appended.head (List.append_ne_nil_of_right_ne_nil _ (List.cons_ne_nil _ _))) current
    (⟨true, limiter.limit, remaining, 0, resetAfter⟩, limiter.setRequests key appended)

/-- The old entries leave the head of the queue before the check is decided. -/
def check (limiter : SlidingWindowRateLimiter) (key : String) (current : Rat) :
    RateLimitDecision × SlidingWindowRateLimiter :=
  let cutoff := current - limiter.windowSeconds
  limiter.answer key ((limiter.requests key).dropWhile fun time => decide (time ≤ cutoff)) current

end SlidingWindowRateLimiter

/-- A check names its key and comes at a time. -/
structure Check where
  key : String
  now : Rat

/-- The limiter takes one check after the other. -/
def rateLimiter (limiter : SlidingWindowRateLimiter) : Machine SlidingWindowRateLimiter Check where
  initial := limiter
  step limiter check := some (limiter.check check.key check.now).2

/-- The decision of a check. -/
def decided (transition : Transition SlidingWindowRateLimiter Check) : RateLimitDecision :=
  (transition.before.check transition.action.key transition.action.now).1

/-- The times of the allowed checks of one key, in the order of the checks. -/
def allowedTimes (key : String) (trace : Trace SlidingWindowRateLimiter Check) : List Rat :=
  (trace.filter fun transition =>
    decide (transition.action.key = key) && (decided transition).allowed).map fun transition =>
      transition.action.now

/-- The checks come at times that never decrease. -/
def Nondecreasing (trace : Trace SlidingWindowRateLimiter Check) : Prop :=
  trace.Pairwise fun first second => first.action.now ≤ second.action.now

variable {limiter last : SlidingWindowRateLimiter} {key : String} {now : Rat}
  {trace earlier later : Trace SlidingWindowRateLimiter Check}
  {transition : Transition SlidingWindowRateLimiter Check}

section AllowedTimes

theorem allowedTimes_append :
    allowedTimes key (earlier ++ later) = allowedTimes key earlier ++ allowedTimes key later := by
  rw [allowedTimes, List.filter_append, List.map_append, allowedTimes, allowedTimes]

theorem allowedTimes_self :
    allowedTimes transition.action.key [transition] =
      if (decided transition).allowed then [transition.action.now] else [] := by
  cases allowed : (decided transition).allowed <;> simp [allowedTimes, allowed]

theorem allowedTimes_eq_nil
    (silent : ∀ transition ∈ trace, transition.action.key = key →
      (decided transition).allowed = false) : allowedTimes key trace = [] := by
  refine List.map_eq_nil_iff.mpr (List.filter_eq_nil_iff.mpr fun transition member => ?_)
  simpa using silent transition member

/-- Every allowed time is the time of a check. -/
theorem exists_of_mem_allowedTimes {time : Rat} (member : time ∈ allowedTimes key trace) :
    ∃ transition ∈ trace, transition.action.now = time := by
  obtain ⟨transition, found, rfl⟩ := List.mem_map.mp member
  exact ⟨transition, List.mem_of_mem_filter found, rfl⟩

end AllowedTimes

namespace SlidingWindowRateLimiter

/-- The queue of a key after the old entries have left it. -/
def kept (limiter : SlidingWindowRateLimiter) (key : String) (current : Rat) : List Rat :=
  recent (limiter.requests key) (current - limiter.windowSeconds)

@[simp] theorem setRequests_limit (timestamps : List Rat) :
    (limiter.setRequests key timestamps).limit = limiter.limit := rfl

@[simp] theorem setRequests_windowSeconds (timestamps : List Rat) :
    (limiter.setRequests key timestamps).windowSeconds = limiter.windowSeconds := rfl

@[simp] theorem setRequests_self (timestamps : List Rat) :
    (limiter.setRequests key timestamps).requests key = timestamps :=
  Function.update_self ..

theorem setRequests_of_ne (timestamps : List Rat) {other : String} (different : other ≠ key) :
    (limiter.setRequests key timestamps).requests other = limiter.requests other :=
  Function.update_of_ne different ..

/-- A new limiter has the settings it is created with and empty queues. -/
theorem create_spec {limit : Int} {windowSeconds : Rat}
    (created : create limit windowSeconds = some limiter) :
    limiter.limit = limit ∧ limiter.windowSeconds = windowSeconds ∧
      limiter.requests = fun _ => [] := by
  rw [create] at created
  split at created
  · obtain rfl := Option.some.inj created
    exact ⟨rfl, rfl, rfl⟩
  · cases created

/-- A check replaces the queue of its key and changes nothing else. -/
theorem check_setRequests (limiter : SlidingWindowRateLimiter) (key : String) (now : Rat) :
    ∃ timestamps, (limiter.check key now).2 = limiter.setRequests key timestamps := by
  rw [check, answer]
  split
  · exact ⟨_, rfl⟩
  · exact ⟨_, rfl⟩

/-- A decision reads the queue of its key only. -/
theorem check_congr {other : SlidingWindowRateLimiter} (limit : other.limit = limiter.limit)
    (windowSeconds : other.windowSeconds = limiter.windowSeconds)
    (queue : other.requests key = limiter.requests key) (now : Rat) :
    (other.check key now).1 = (limiter.check key now).1 ∧
      (other.check key now).2.requests key = (limiter.check key now).2.requests key := by
  obtain ⟨_, _, others, _, _⟩ := other
  obtain ⟨_, _, queues, _, _⟩ := limiter
  obtain rfl : _ = _ := limit
  obtain rfl : _ = _ := windowSeconds
  rw [check, check, queue, answer, answer]
  split
  · exact ⟨rfl, (setRequests_self _).trans (setRequests_self _).symm⟩
  · exact ⟨rfl, (setRequests_self _).trans (setRequests_self _).symm⟩

/-- The loop at the head of a sorted queue keeps exactly the entries of the window. -/
theorem check_eq (sorted : (limiter.requests key).Pairwise (· ≤ ·)) :
    limiter.check key now = limiter.answer key (limiter.kept key now) now := by
  rw [check, dropWhile_eq_recent sorted, kept]

/-- A check with room in the window appends its own time. -/
theorem check_allowed (sorted : (limiter.requests key).Pairwise (· ≤ ·))
    (room : ((limiter.kept key now).length : Int) < limiter.limit) :
    (limiter.check key now).1.allowed = true ∧
      (limiter.check key now).1.remaining = limiter.limit - (limiter.kept key now).length - 1 ∧
      (limiter.check key now).2 = limiter.setRequests key (limiter.kept key now ++ [now]) := by
  rw [check_eq sorted, answer, dif_neg (not_le.mpr room)]
  refine ⟨rfl, ?_, rfl⟩
  simp only [List.length_append, List.length_singleton]
  omega

/-- A check of a full window changes nothing but the old entries. -/
theorem check_refused (sorted : (limiter.requests key).Pairwise (· ≤ ·))
    (full : limiter.limit ≤ (limiter.kept key now).length) :
    (limiter.check key now).1.allowed = false ∧ (limiter.check key now).1.remaining = 0 ∧
      (∃ oldest rest, limiter.kept key now = oldest :: rest ∧
        (limiter.check key now).1.retryAfter = limiter.secondsLeft oldest now) ∧
      (limiter.check key now).2 = limiter.setRequests key (limiter.kept key now) := by
  rw [check_eq sorted, answer, dif_pos full]
  exact ⟨rfl, rfl, ⟨_, _, (List.cons_head_tail (limiter.ne_nil_of_full full)).symm, rfl⟩, rfl⟩

/-- A check changes the queue of its key only, and only an allowed check adds to it. -/
theorem check_queue (sorted : (limiter.requests key).Pairwise (· ≤ ·)) :
    (limiter.check key now).2 = limiter.setRequests key (limiter.kept key now ++
      if (limiter.check key now).1.allowed then [now] else []) := by
  rcases lt_or_ge ((limiter.kept key now).length : Int) limiter.limit with room | full
  · obtain ⟨allowed, _, queue⟩ := check_allowed sorted room
    rw [queue, allowed, if_pos rfl]
  · obtain ⟨refused, _, _, queue⟩ := check_refused sorted full
    rw [queue, refused, if_neg Bool.false_ne_true, List.append_nil]

/-- A check is allowed exactly while its window has room. -/
theorem check_allowed_iff (sorted : (limiter.requests key).Pairwise (· ≤ ·)) :
    (limiter.check key now).1.allowed = true ↔
      ((limiter.kept key now).length : Int) < limiter.limit := by
  rcases lt_or_ge ((limiter.kept key now).length : Int) limiter.limit with room | full
  · exact iff_of_true (check_allowed sorted room).1 room
  · exact iff_of_false (by rw [(check_refused sorted full).1]; exact Bool.false_ne_true)
      (not_lt.mpr full)

end SlidingWindowRateLimiter

/-- A queue agrees with the history on every time that a later check can count. -/
structure Remembers (limiter : SlidingWindowRateLimiter) (queue : List Rat) (key : String)
    (trace : Trace SlidingWindowRateLimiter Check) : Prop where
  sorted : queue.Pairwise (· ≤ ·)
  room : (queue.length : Int) ≤ limiter.limit
  checked : ∀ time ∈ queue, ∃ transition ∈ trace, transition.action.now = time
  counted : ∀ now, (∀ transition ∈ trace, transition.action.now ≤ now) →
    recent queue (now - limiter.windowSeconds) =
      recent (allowedTimes key trace) (now - limiter.windowSeconds)

namespace Remembers
variable {queue : List Rat}

theorem initial (limiter : SlidingWindowRateLimiter) (key : String) :
    Remembers limiter [] key [] where
  sorted := .nil
  room := le_trans zero_le_one limiter.limitPositive
  checked _ member := by cases member
  counted _ _ := rfl

/-- The checks of other keys leave a queue as it is. -/
theorem other (held : Remembers limiter queue key trace)
    (different : transition.action.key ≠ key) :
    Remembers limiter queue key (trace ++ [transition]) where
  sorted := held.sorted
  room := held.room
  checked time member := by
    obtain ⟨transition, found, same⟩ := held.checked time member
    exact ⟨transition, List.mem_append_left _ found, same⟩
  counted now latest := by
    have silent : allowedTimes key [transition] = [] := allowedTimes_eq_nil fun only member same => by
      rw [List.mem_singleton.mp member] at same
      exact absurd same different
    rw [allowedTimes_append, silent, List.append_nil,
      held.counted now fun earlier found => latest earlier (List.mem_append_left _ found)]

/-- A check of the key drops what has left its window, and adds its own time when it is allowed. -/
theorem checkKey (held : Remembers limiter queue transition.action.key trace)
    (latest : ∀ earlier ∈ trace, earlier.action.now ≤ transition.action.now)
    (room : (decided transition).allowed = true →
      ((recent queue (transition.action.now - limiter.windowSeconds)).length : Int) < limiter.limit) :
    Remembers limiter (recent queue (transition.action.now - limiter.windowSeconds) ++
        if (decided transition).allowed then [transition.action.now] else [])
      transition.action.key (trace ++ [transition]) := by
  have kept : (recent queue (transition.action.now - limiter.windowSeconds)).length ≤ queue.length :=
    List.length_filter_le ..
  refine ⟨List.pairwise_append.mpr ⟨held.sorted.filter _, ?_, fun time old added new => ?_⟩, ?_,
    fun time member => ?_, fun now after => ?_⟩
  · split
    · exact List.pairwise_singleton ..
    · exact .nil
  · obtain ⟨earlier, found, rfl⟩ := held.checked time (mem_recent.mp old).1
    split at new
    · obtain rfl := List.mem_singleton.mp new
      exact latest earlier found
    · cases new
  · have held := held.room
    split
    next allowed =>
      have room := room allowed
      rw [List.length_append, List.length_singleton]
      omega
    next =>
      rw [List.append_nil]
      omega
  · rcases List.mem_append.mp member with old | new
    · obtain ⟨earlier, found, rfl⟩ := held.checked time (mem_recent.mp old).1
      exact ⟨earlier, List.mem_append_left _ found, rfl⟩
    · split at new
      · exact ⟨transition, by simp, (List.mem_singleton.mp new).symm⟩
      · cases new
  · have order : transition.action.now - limiter.windowSeconds ≤ now - limiter.windowSeconds :=
      sub_le_sub_right (after transition (by simp)) _
    rw [recent_append, recent_recent order, allowedTimes_append, recent_append, allowedTimes_self,
      held.counted now fun earlier found => after earlier (List.mem_append_left _ found)]

end Remembers

/-- The queues of a run remember its history. -/
structure KeepsHistory (limiter last : SlidingWindowRateLimiter)
    (trace : Trace SlidingWindowRateLimiter Check) : Prop where
  limit : last.limit = limiter.limit
  windowSeconds : last.windowSeconds = limiter.windowSeconds
  remembers : ∀ key, Remembers limiter (last.requests key) key trace

/-- The queues remember one more check. -/
theorem KeepsHistory.check (transition : Transition SlidingWindowRateLimiter Check)
    (held : KeepsHistory limiter transition.before trace)
    (latest : ∀ earlier ∈ trace, earlier.action.now ≤ transition.action.now)
    (taken : (transition.before.check transition.action.key transition.action.now).2 =
      transition.after) :
    KeepsHistory limiter transition.after (trace ++ [transition]) := by
  have sorted := (held.remembers transition.action.key).sorted
  rw [SlidingWindowRateLimiter.check_queue sorted, SlidingWindowRateLimiter.kept,
    held.windowSeconds] at taken
  rw [← taken]
  refine ⟨held.limit, held.windowSeconds, fun other => ?_⟩
  by_cases same : other = transition.action.key
  · subst same
    rw [SlidingWindowRateLimiter.setRequests_self]
    refine (held.remembers _).checkKey latest fun allowed => ?_
    have room := (SlidingWindowRateLimiter.check_allowed_iff sorted).mp allowed
    rwa [SlidingWindowRateLimiter.kept, held.limit, held.windowSeconds] at room
  · rw [SlidingWindowRateLimiter.setRequests_of_ne _ same]
    exact (held.remembers other).other (Ne.symm same)

/-- The queues of a new limiter remember every run in order. -/
theorem keepsHistory {limit : Int} {windowSeconds : Rat}
    (created : SlidingWindowRateLimiter.create limit windowSeconds = some limiter)
    (runs : (rateLimiter limiter).Runs limiter last trace) (ordered : Nondecreasing trace) :
    KeepsHistory limiter last trace := by
  have empty := (SlidingWindowRateLimiter.create_spec created).2.2
  induction runs with
  | refl => exact ⟨rfl, rfl, fun key => by rw [empty]; exact .initial limiter key⟩
  | step action earlier taken ih =>
      obtain ⟨before, _, latest⟩ := List.pairwise_append.mp ordered
      exact KeepsHistory.check ⟨_, action, _⟩ (ih before)
        (fun transition member => latest transition member _ (List.mem_singleton_self _))
        (Option.some.inj taken)

end EventLedger.EventGateway
