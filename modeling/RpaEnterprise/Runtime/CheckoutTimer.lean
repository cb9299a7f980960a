import RpaEnterprise.Runtime.Checkouts

/-!
# The checkout timer

Pauses and resumes of the checkout of one workitem, in any order and repeated, each at its own time.
How long the timer ran is read off the calls alone and compared with the expiry in the row.
-/

namespace RpaEnterprise.Runtime

open Lib

inductive TimerCall where
  | pause
  | resume
deriving Repr, DecidableEq

def TimerCall.tx (runId : RunId) : TimerCall → DbTx Unit
  | .pause => pauseLinkedWorkitemCheckout runId
  | .resume => resumeLinkedWorkitemCheckout runId

def TimerCall.change : TimerCall → Time → WorkitemRow → WorkitemRow
  | .pause => WorkitemRow.pauseCheckout
  | .resume => WorkitemRow.resumeCheckout

/-- The calls, each a transaction at its time. -/
def callAll (runId : RunId) : List (Time × TimerCall) → DbTx Unit
  | [] => pure ()
  | (time, call) :: rest => do
    modify fun db => { db with now := time }
    call.tx runId
    callAll runId rest

/-! ## What the calls ask for -/

/-- Since when the timer runs after the calls, if it runs; `since` is the same before them. -/
def runningSince (since : Option Time) : List (Time × TimerCall) → Option Time
  | [] => since
  | (_, .pause) :: rest => runningSince none rest
  | (time, .resume) :: rest => runningSince (some (since.getD time)) rest

/-- How long the timer has run at an instant after the calls. -/
def ran (since : Option Time) (calls : List (Time × TimerCall)) (instant : Time) : Int :=
  match calls, since with
  | [], some start => instant - start
  | [], none => 0
  | (time, .pause) :: rest, some start => (time - start) + ran none rest instant
  | (_, .pause) :: rest, none => ran none rest instant
  | (time, .resume) :: rest, since => ran (some (since.getD time)) rest instant

/-- The times do not decrease, from the start to the instant. -/
def InOrder (start : Time) (calls : List (Time × TimerCall)) (instant : Time) : Prop :=
  match calls with
  | [] => start ≤ instant
  | (time, _) :: rest => start ≤ time ∧ InOrder time rest instant

/-! ## The row -/

def rowAfter (row : WorkitemRow) (calls : List (Time × TimerCall)) : WorkitemRow :=
  calls.foldl (fun row call => call.2.change call.1 row) row

/-- The row of a timer that runs since, or is paused at, a time, with the time it has left. -/
structure Shows (row : WorkitemRow) (since : Option Time) (mark : Time) (left : Int) : Prop where
  processing : row.status = .processing
  paused : row.checkoutPausedAt = if since.isSome then none else some mark
  expires : ∃ expires, row.checkoutExpiresAt = some expires ∧ (expires : Int) - mark = left
  runs : ∀ start, since = some start → start = mark

theorem Shows.pause {row : WorkitemRow} {since : Option Time} {mark time : Time} {left : Int}
    (shows : Shows row since mark left) :
    Shows (row.pauseCheckout time) none (if since.isSome then time else mark)
      (left - if since.isSome then (time : Int) - mark else 0) := by
  obtain ⟨processing, paused, ⟨expires, stored, rest⟩, -⟩ := shows
  cases since with
  | none =>
    have same : row.pauseCheckout time = row := by simp [WorkitemRow.pauseCheckout, paused]
    rw [same]
    exact ⟨processing, by simpa using paused, ⟨expires, stored, by simpa using rest⟩, by simp⟩
  | some start =>
    have set_ : row.pauseCheckout time = { row with checkoutPausedAt := some time } := by
      simp [WorkitemRow.pauseCheckout, processing, paused]
    rw [set_]
    exact ⟨processing, rfl, ⟨expires, stored, by simp; omega⟩, by simp⟩

theorem Shows.resume {row : WorkitemRow} {since : Option Time} {mark time : Time} {left : Int}
    (shows : Shows row since mark left) (later : mark ≤ time) :
    Shows (row.resumeCheckout time) (some (since.getD time)) (if since.isSome then mark else time) left := by
  obtain ⟨processing, paused, ⟨expires, stored, rest⟩, runs⟩ := shows
  cases since with
  | none =>
    have moved : row.resumeCheckout time =
        { row with checkoutExpiresAt := some (expires + (time - mark)), checkoutPausedAt := none } := by
      simp [WorkitemRow.resumeCheckout, paused, processing, stored]
    rw [moved]
    refine ⟨processing, rfl, ⟨_, rfl, ?_⟩, by simp⟩
    have later : (mark : Nat) ≤ time := later
    rw [if_neg (by simp), Int.natCast_add, Int.natCast_sub later]
    omega
  | some start =>
    have same : row.resumeCheckout time = row := by simp [WorkitemRow.resumeCheckout, paused]
    rw [same]
    exact ⟨processing, paused, ⟨expires, stored, by simpa using rest⟩, by simpa using runs⟩

/-- What a timer that runs has used since its mark. -/
def used (since : Option Time) (mark instant : Time) : Int := if since.isSome then (instant : Int) - mark else 0

/-- After the calls the row shows the time that was left less the time the timer ran. -/
theorem Shows.after {row : WorkitemRow} {since : Option Time} {mark base instant : Time} {left : Int}
    {calls : List (Time × TimerCall)} (shows : Shows row since mark left) (marked : mark ≤ base)
    (order : InOrder base calls instant) :
    ∃ mark', mark' ≤ instant ∧
      Shows (rowAfter row calls) (runningSince since calls) mark'
        (left - ran since calls instant + used (runningSince since calls) mark' instant) := by
  induction calls generalizing row since mark base left with
  | nil =>
    refine ⟨mark, Nat.le_trans marked order, ?_⟩
    have none_ran : left - ran since [] instant + used since mark instant = left := by
      cases since with
      | none => simp [ran, used]
      | some start =>
        obtain rfl := shows.runs start rfl
        simp [ran, used]
    rw [runningSince, none_ran]
    exact shows
  | cons head rest ih =>
    obtain ⟨time, call⟩ := head
    obtain ⟨early, order⟩ := order
    have later : mark ≤ time := Nat.le_trans marked early
    cases call with
    | pause =>
      have stops : (if since.isSome then time else mark) ≤ time := by split <;> first | exact Nat.le_refl _ | exact later
      obtain ⟨mark', before, shown⟩ := ih (@Shows.pause _ _ _ time _ shows) stops order
      refine ⟨mark', before, ?_⟩
      have total : left - ran since ((time, .pause) :: rest) instant =
          (left - if since.isSome then (time : Int) - mark else 0) - ran none rest instant := by
        cases since with
        | none => simp [ran]
        | some start =>
          obtain rfl := shows.runs start rfl
          simp only [ran, Option.isSome_some, if_true]
          omega
      rw [total]
      exact shown
    | resume =>
      have starts : (if since.isSome then mark else time) ≤ time := by split <;> first | exact Nat.le_refl _ | exact later
      obtain ⟨mark', before, shown⟩ := ih (shows.resume later) starts order
      refine ⟨mark', before, ?_⟩
      have total : ran since ((time, .resume) :: rest) instant = ran (some (since.getD time)) rest instant := by
        cases since <;> rfl
      rw [total]
      exact shown

/-! ## The database -/

theorem callAll_ok {runId : RunId} {workitemId : WorkitemId} (calls : List (Time × TimerCall)) {db : Db}
    {row : WorkitemRow} (linked : db.linkedWorkitem runId = some workitemId)
    (stored : db.workitems.get workitemId = some row) :
    ∃ next, (callAll runId calls).run db = .ok ((), next) ∧
      next.workitems.get workitemId = some (rowAfter row calls) := by
  induction calls generalizing db row with
  | nil => exact ⟨db, rfl, stored⟩
  | cons head rest ih =>
    obtain ⟨time, call⟩ := head
    let timed : Db := { db with now := time }
    let after : Db := { timed with workitems := timed.workitems.modify workitemId (call.change time) }
    have written : timed.modifyLinked runId (call.change time) = after := by
      have same : timed.linkedWorkitem runId = some workitemId := linked
      simp only [Db.modifyLinked, same, after]
    have called : (call.tx runId).run timed = .ok ((), after) := by
      cases call with
      | pause => exact pauseLinkedWorkitemCheckout_ok.mpr written.symm
      | resume => exact resumeLinkedWorkitemCheckout_ok.mpr written.symm
    have changed : after.workitems.get workitemId = some (call.change time row) := by
      simp [after, timed, Table.get_modify_self, stored]
    obtain ⟨next, ran, found⟩ := @ih after _ linked changed
    exact ⟨next, Tx.bind_ok.mpr ⟨(), timed, rfl, Tx.bind_ok.mpr ⟨(), after, called, ran⟩⟩, found⟩

/-- A sweep at any time leaves a paused checkout alone. -/
theorem sweep_keeps_paused {locked : List WorkitemId} {db next : Db} {done : Unit} {workitemId : WorkitemId}
    {row : WorkitemRow} (stored : db.workitems.get workitemId = some row) (paused : row.checkoutPausedAt ≠ none)
    (swept : (handleWorkitemCheckoutSweeper locked).run db = .ok (done, next)) :
    next.workitems.get workitemId = some row := by
  have rows := (handleWorkitemCheckoutSweeper_expires swept).rows workitemId
  rw [stored] at rows
  generalize got : next.workitems.get workitemId = found at rows
  cases rows with
  | some related =>
    rcases related with same | ⟨listed, -⟩
    · rw [same]
    · obtain ⟨-, old, held, expired⟩ := Db.mem_expiredCheckouts.mp listed
      obtain rfl : row = old := Option.some.inj (stored.symm.trans held)
      simp [WorkitemRow.checkoutExpired, paused] at expired

/-- The calls succeed.  The timer is paused exactly when they leave it paused; while it runs, the
time left is the timeout less the time it ran; and no sweep touches it while it is paused. -/
theorem checkout_timer_exact {db : Db} {runId : RunId} {workitemId : WorkitemId} {row : WorkitemRow}
    {start timeout : Time} (calls : List (Time × TimerCall)) {instant : Time}
    (linked : db.linkedWorkitem runId = some workitemId) (stored : db.workitems.get workitemId = some row)
    (processing : row.status = .processing) (running : row.checkoutPausedAt = none)
    (expires : row.checkoutExpiresAt = some (start + timeout)) (order : InOrder start calls instant) :
    ∃ next row', (callAll runId calls).run db = .ok ((), next) ∧ next.workitems.get workitemId = some row' ∧
      (row'.checkoutPausedAt = none ↔ (runningSince (some start) calls).isSome) ∧
      (row'.checkoutPausedAt = none → ∃ expiry, row'.checkoutExpiresAt = some expiry ∧
        (expiry : Int) - instant = timeout - ran (some start) calls instant) ∧
      (row'.checkoutPausedAt ≠ none → ∀ time locked swept,
        (handleWorkitemCheckoutSweeper locked).run { next with now := time } = .ok ((), swept) →
          swept.workitems.get workitemId = some row') := by
  have shows : Shows row (some start) start timeout :=
    ⟨processing, running, ⟨_, expires, by rw [Int.natCast_add]; omega⟩, fun _ same => (Option.some.inj same).symm⟩
  obtain ⟨mark, -, shown⟩ := shows.after (Nat.le_refl start) order
  obtain ⟨next, called, found⟩ := callAll_ok calls linked stored
  have pausedIff : (rowAfter row calls).checkoutPausedAt = none ↔ (runningSince (some start) calls).isSome := by
    rw [shown.paused]
    cases runningSince (some start) calls <;> simp
  refine ⟨next, rowAfter row calls, called, found, pausedIff, fun runs => ?_, fun paused time locked swept ran => ?_⟩
  · obtain ⟨expiry, held, left⟩ := shown.expires
    refine ⟨expiry, held, ?_⟩
    rw [used, if_pos (pausedIff.mp runs)] at left
    omega
  · have later : ({ next with now := time } : Db).workitems.get workitemId = some (rowAfter row calls) := found
    exact sweep_keeps_paused later paused ran

/-- One queued run whose workitem is checked out. -/
def checkedOutRun : Db where
  now := 0
  runs := ⟨[(1, ⟨.queued, some 7, none⟩)], by decide⟩
  workitems := ⟨[(7,
    { status := .processing, attempts := 0, checkedOutBy := some 2, checkedOutAt := some 0
      checkoutExpiresAt := some workitemCheckoutTimeoutMs, checkoutPausedAt := none })], by decide⟩
  deadLetters := []
  outbox := []

/-- Two pauses and two resumes: of seven seconds the timer ran three. -/
theorem checkout_timer_exact_repeated :
    ∃ next row', (callAll 1 [(1000, .pause), (2000, .pause), (5000, .resume), (6000, .resume)]).run checkedOutRun =
        .ok ((), next) ∧ next.workitems.get 7 = some row' ∧
      ∃ expiry, row'.checkoutExpiresAt = some expiry ∧ (expiry : Int) - 7000 = workitemCheckoutTimeoutMs - 3000 := by
  obtain ⟨next, row', called, found, paused, left, -⟩ :=
    @checkout_timer_exact checkedOutRun 1 7 _ 0 workitemCheckoutTimeoutMs
      [(1000, .pause), (2000, .pause), (5000, .resume), (6000, .resume)] 7000 rfl rfl rfl rfl rfl (by simp [InOrder])
  exact ⟨next, row', called, found, left (paused.mpr rfl)⟩

end RpaEnterprise.Runtime
