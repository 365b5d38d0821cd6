import EventLedger.EventGateway.AsyncFallback
import EventLedger.Library.Machine
import Mathlib.Logic.Function.Basic

namespace EventLedger.EventGateway
open Library Python

/-- One gateway process serves any number of submits and runs one worker on its database. -/
structure Process where
  db : Database
  submits : Nat → Submit
  worker : Worker

inductive Action where
  | arrive (call : Nat) (submission : Submission)
  | advance (call : Nat)
  | resume (call : Nat) (outcome : CallOutcome) (now : Rat)
  | poll (now : Rat)
  | take (fresh : String)
  | deliver (outcome : CallOutcome) (now : Rat) (draw : Draw)
  | rest
  | crash

/-- A step of a submit replaces the state of that submit. -/
def Process.move (process : Process) (i : Nat) (submit : Submit) (db : Database) : Process :=
  { process with db := db, submits := Function.update process.submits i submit }

/-- A submit performs its next read or commit. -/
def Submit.advance (storage : Storage) (db : Database) : Submit → Option (Submit × Database)
  | .received submission => some (submission.lookup db, db)
  | .inserting submission =>
      match db.commit storage ⟨some (.insert submission.event), none, []⟩ with
      | some next => some (.stored submission (submission.event.stored storage), next)
      | none => some (.conflicted submission, db)
  | .conflicted submission => some (submission.relookup db, db)
  | .stored submission event =>
      (db.commit storage ⟨none, none, [submission.record .eventStored .success none]⟩).map
        fun next => (.calling submission event, next)
  | .recording record answer =>
      (db.commit storage ⟨none, none, [record]⟩).map fun next => (.answered answer, next)
  | .idle | .calling _ _ | .answered _ => none

/-- A submit whose await has ended performs its first commit. -/
def Submit.resume (storage : Storage) (settings : Settings) (db : Database) (outcome : CallOutcome)
    (now : Rat) : Submit → Option (Submit × Database)
  | .calling submission event =>
      match submission.settle settings event db now outcome with
      | some (work, after) =>
          match db.commit storage work with
          | some next => some (after, next)
          | none => some (.answered .databaseError, db)
      | none => some (.answered .unhandled, db)
  | _ => none

/-- The worker attempts the next event id of its pass. -/
def Worker.take (storage : Storage) (db : Database) (fresh : String) :
    Worker → Option (Worker × Database)
  | .passing (eventId :: remaining) processed =>
      match EventGateway.take db eventId with
      | .absent => some (.passing remaining processed, db)
      | .orphan work =>
          match db.commit storage work with
          | some next => some (.passing remaining processed, next)
          | none => some (.idle, db)
      | .calling delivery event =>
          some (.calling delivery event (normalizeTraceId (some delivery.traceId) fresh)
            remaining processed, db)
  | _ => none

/-- An exception that leaves the worker's attempt ends its pass. -/
def Worker.deliver (storage : Storage) (settings : Settings) (db : Database)
    (outcome : CallOutcome) (now : Rat) (draw : Draw) : Worker → Option (Worker × Database)
  | .calling delivery event traceId remaining processed =>
      match EventGateway.deliver settings delivery event traceId now draw outcome with
      | some (work, done) =>
          match db.commit storage work with
          | some next =>
              some (.passing remaining (if done then processed + 1 else processed), next)
          | none => some (.idle, db)
      | none => some (.idle, db)
  | _ => none

/-- A crash loses every submit and the pass of the worker and keeps the database. -/
def Process.crashed (db : Database) : Process := ⟨db, fun _ => .idle, .idle⟩

def Process.step (storage : Storage) (settings : Settings) (process : Process) :
    Action → Option Process
  | .arrive i submission =>
      match process.submits i with
      | .idle => some (process.move i (.received submission) process.db)
      | _ => none
  | .advance i =>
      ((process.submits i).advance storage process.db).map fun (submit, db) =>
        process.move i submit db
  | .resume i outcome now =>
      ((process.submits i).resume storage settings process.db outcome now).map fun (submit, db) =>
        process.move i submit db
  | .poll now =>
      match process.worker with
      | .idle =>
          if settings.asyncFallbackEnabled then
            let due := dueEventIds process.db.deliveries settings.asyncFallbackBatchSize now
            some { process with worker := .passing due 0 }
          else none
      | _ => none
  | .take fresh =>
      (process.worker.take storage process.db fresh).map fun (worker, db) =>
        { process with db := db, worker := worker }
  | .deliver outcome now draw =>
      (process.worker.deliver storage settings process.db outcome now draw).map fun (worker, db) =>
        { process with db := db, worker := worker }
  | .rest =>
      match process.worker with
      | .passing [] _ => some { process with worker := .idle }
      | _ => none
  | .crash => some (.crashed process.db)

/-- The gateway starts with empty tables. -/
def gateway (storage : Storage) (settings : Settings) : Machine Process Action where
  initial := .crashed .empty
  step := Process.step storage settings

end EventLedger.EventGateway
