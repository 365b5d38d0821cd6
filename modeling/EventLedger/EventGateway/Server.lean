import EventLedger.EventGateway.Consistency
import EventLedger.Library.Trace

namespace EventLedger.EventGateway
open Library Python

/-- The server also reads how long the worker waits between two passes. -/
structure ServerSettings extends Settings where
  asyncFallbackPollSeconds : Rat

/-- A task of `AsyncFallbackWorker.run` is about to read its stop event, makes a pass, or waits for
the stop event up to a deadline. -/
inductive WorkerTask where
  | looping
  | passing (worker : Worker)
  | waiting (deadline : Rat)
  | done

/-- The ASGI server starts the application, and stops it before it starts it again. -/
inductive Lifespan where
  | down
  | up
  | stopping (deadline : Rat)

/-- The application keeps its task and the task's stop event under one number. -/
structure Server where
  now : Rat
  db : Database
  submits : Nat → Submit
  tasks : Nat → WorkerTask
  stopEvents : Nat → Bool
  created : Nat
  asyncFallbackTask : Option Nat
  lifespan : Lifespan

inductive ServerAction where
  | tick (now : Rat)
  | startup
  | shutdown
  | joined
  | timeout
  | loop (task : Nat) (utcnow : Rat)
  | take (task : Nat) (fresh : String)
  | deliver (task : Nat) (outcome : CallOutcome) (utcnow : Rat) (draw : Draw)
  | rest (task : Nat)
  | wake (task : Nat)
  | arrive (call : Nat) (submission : Submission)
  | advance (call : Nat)
  | resume (call : Nat) (outcome : CallOutcome) (utcnow : Rat)
  | crash

def WorkerTask.isDone : WorkerTask → Bool
  | .done => true
  | .looping | .passing _ | .waiting _ => false

/-- A task is cancelled at an await only. -/
def WorkerTask.awaits : WorkerTask → Bool
  | .looping | .waiting _ | .passing (.calling _ _ _ _ _) => true
  | .passing .idle | .passing (.passing _ _) | .done => false

/-- The pass of a task, if there is one. -/
def WorkerTask.worker : WorkerTask → Worker
  | .passing worker => worker
  | .looping | .waiting _ | .done => .idle

namespace Server

/-- A step of a task replaces the state of that task. -/
def setTask (server : Server) (n : Nat) (task : WorkerTask) (db : Database) : Server :=
  { server with db := db, tasks := Function.update server.tasks n task }

/-- A pass that has ended, by its last event id or by an exception, waits for the next poll. -/
def goOn (settings : ServerSettings) (server : Server) : Worker → WorkerTask
  | .idle => .waiting (server.now + settings.asyncFallbackPollSeconds)
  | worker => .passing worker

/-- The startup creates a task when there is none. -/
def startup (settings : ServerSettings) (server : Server) : Server :=
  if settings.asyncFallbackEnabled ∧ server.asyncFallbackTask = none then
    { server with
      tasks := Function.update server.tasks server.created .looping
      stopEvents := Function.update server.stopEvents server.created false
      created := server.created + 1
      asyncFallbackTask := some server.created
      lifespan := .up }
  else { server with lifespan := .up }

/-- The shutdown sets the stop event and waits for the task. -/
def shutdown (settings : ServerSettings) (server : Server) : Server :=
  match server.asyncFallbackTask with
  | some n =>
      { server with
        stopEvents := Function.update server.stopEvents n true
        lifespan := .stopping (server.now + max 2 (settings.asyncFallbackPollSeconds + 1)) }
  | none => { server with lifespan := .down }

/-- The shutdown forgets the task in the end. -/
def forget (server : Server) : Server :=
  { server with asyncFallbackTask := none, lifespan := .down }

/-- A step of a submit replaces the state of that submit. -/
def move (server : Server) (i : Nat) (submit : Submit) (db : Database) : Server :=
  { server with db := db, submits := Function.update server.submits i submit }

def step (storage : Storage) (settings : ServerSettings) (server : Server) :
    ServerAction → Option Server
  | .tick now => if server.now ≤ now then some { server with now := now } else none
  | .startup =>
      match server.lifespan with
      | .down => some (server.startup settings)
      | _ => none
  | .shutdown =>
      match server.lifespan with
      | .up => some (server.shutdown settings)
      | _ => none
  | .joined =>
      match server.lifespan, server.asyncFallbackTask with
      | .stopping _, some n => if (server.tasks n).isDone then some server.forget else none
      | _, _ => none
  | .timeout =>
      match server.lifespan, server.asyncFallbackTask with
      | .stopping deadline, some n =>
          if deadline ≤ server.now ∧ (server.tasks n).awaits then
            some (server.setTask n .done server.db).forget
          else none
      | _, _ => none
  | .loop n utcnow =>
      match server.tasks n with
      | .looping =>
          if server.stopEvents n then some (server.setTask n .done server.db)
          else
            let due := dueEventIds server.db.deliveries settings.asyncFallbackBatchSize utcnow
            some (server.setTask n (.passing (.passing due 0)) server.db)
      | _ => none
  | .take n fresh =>
      ((server.tasks n).worker.take storage server.db fresh).map fun (worker, db) =>
        server.setTask n (server.goOn settings worker) db
  | .deliver n outcome utcnow draw =>
      ((server.tasks n).worker.deliver storage settings.toSettings server.db outcome utcnow draw).map
        fun (worker, db) => server.setTask n (server.goOn settings worker) db
  | .rest n =>
      match (server.tasks n).worker with
      | .passing [] _ => some (server.setTask n (server.goOn settings .idle) server.db)
      | _ => none
  | .wake n =>
      match server.tasks n with
      | .waiting deadline =>
          if server.stopEvents n ∨ deadline ≤ server.now then some (server.setTask n .looping server.db)
          else none
      | _ => none
  | .arrive i submission =>
      match server.submits i with
      | .idle => some (server.move i (.received submission) server.db)
      | _ => none
  | .advance i =>
      ((server.submits i).advance storage server.db).map fun (submit, db) => server.move i submit db
  | .resume i outcome utcnow =>
      ((server.submits i).resume storage settings.toSettings server.db outcome utcnow).map
        fun (submit, db) => server.move i submit db
  | .crash =>
      some { server with
        submits := fun _ => .idle
        tasks := fun _ => .done
        stopEvents := fun _ => false
        asyncFallbackTask := none
        lifespan := .down }

/-- The process of a server has the pass of the application's task. -/
def process (server : Server) : Process where
  db := server.db
  submits := server.submits
  worker := match server.asyncFallbackTask with
    | some n => (server.tasks n).worker
    | none => .idle

end Server

/-- The server is down at first, with empty tables. -/
def eventGateway (storage : Storage) (settings : ServerSettings) (start : Rat) :
    Machine Server ServerAction where
  initial := ⟨start, .empty, fun _ => .idle, fun _ => .done, fun _ => false, 0, none, .down⟩
  step := Server.step storage settings

variable {storage : Storage} {settings : ServerSettings} {start : Rat}
  {server next : Server} {action : ServerAction}

/-- Only the task of the application runs, it runs only with the fallback enabled, an application
that is down has no task, and its task was created before. -/
structure Server.Sound (settings : ServerSettings) (server : Server) : Prop where
  single : ∀ n, (server.tasks n).isDone = false → server.asyncFallbackTask = some n
  enabled : ∀ n, server.asyncFallbackTask = some n → settings.asyncFallbackEnabled
  down : server.lifespan = .down → server.asyncFallbackTask = none
  known : ∀ n, server.asyncFallbackTask = some n → n < server.created

namespace Server

@[simp] theorem goOn_worker (settings : ServerSettings) (server : Server) (worker : Worker) :
    (server.goOn settings worker).worker = worker := by
  cases worker <;> rfl

/-- A running pass shows that its task is not done. -/
theorem isDone_of_worker {task : WorkerTask} (running : task.worker ≠ .idle) :
    task.isDone = false := by
  cases task with
  | looping | waiting | passing => rfl
  | done => exact absurd rfl running

/-- The process sees the pass of the application's task. -/
theorem process_worker {n : Nat} (current : server.asyncFallbackTask = some n) :
    server.process.worker = (server.tasks n).worker := by
  rw [process, current]

theorem setTask_tasks (server : Server) (n m : Nat) (task : WorkerTask) (db : Database) :
    (server.setTask n task db).tasks m = if m = n then task else server.tasks m :=
  Function.update_apply _ _ _ _

/-- A step of the application's task is seen as a step of the worker. -/
theorem setTask_process {n : Nat} (current : server.asyncFallbackTask = some n)
    (task : WorkerTask) (db : Database) : (server.setTask n task db).process =
      { server.process with db := db, worker := task.worker } := by
  simp [process, setTask, current]

/-- A server whose running task is the application's stays sound when it changes that task. -/
theorem Sound.setTask {n : Nat} (sound : server.Sound settings)
    (current : server.asyncFallbackTask = some n) (task : WorkerTask) (db : Database) :
    (server.setTask n task db).Sound settings where
  single m running := by
    by_cases same : m = n
    · rw [same]
      exact current
    · exact sound.single m (by simpa [Server.setTask, same] using running)
  enabled := sound.enabled
  down := sound.down
  known := sound.known

/-- An application without a task has no running task. -/
theorem Sound.allDone (sound : server.Sound settings) (none : server.asyncFallbackTask = none)
    (n : Nat) : (server.tasks n).isDone = true := by
  cases running : (server.tasks n).isDone with
  | true => rfl
  | false =>
      have current := sound.single n running
      rw [none] at current
      cases current

/-- A server that forgets a task that is done stays sound. -/
theorem Sound.forget {n : Nat} (sound : server.Sound settings)
    (current : server.asyncFallbackTask = some n) (finished : (server.tasks n).isDone = true) :
    server.forget.Sound settings where
  single m running := by
    have same := sound.single m running
    rw [current] at same
    obtain rfl := Option.some.inj same
    have running : (server.tasks n).isDone = false := running
    rw [finished] at running
    cases running
  enabled m same := by cases same
  down _ := rfl
  known m same := by cases same

/-- A done task makes no pass. -/
theorem forget_process {n : Nat} (current : server.asyncFallbackTask = some n)
    (finished : (server.tasks n).isDone = true) : server.forget.process = server.process := by
  cases same : server.tasks n with
  | done => simp [process, forget, current, same, WorkerTask.worker]
  | looping | passing | waiting =>
      rw [same] at finished
      cases finished

/-- This relation lists every step of the server. A step of a pass or of a submit is a step of the
process that has this pass or this submit. -/
inductive Step (storage : Storage) (settings : ServerSettings) (server : Server) :
    ServerAction → Server → Prop where
  | tick (now : Rat) (later : server.now ≤ now) :
      Step storage settings server (.tick now) { server with now := now }
  | startup (down : server.lifespan = .down) :
      Step storage settings server .startup (server.startup settings)
  | shutdown (up : server.lifespan = .up) :
      Step storage settings server .shutdown (server.shutdown settings)
  | joined (n : Nat) (current : server.asyncFallbackTask = some n)
      (finished : (server.tasks n).isDone = true) :
      Step storage settings server .joined server.forget
  | timeout (n : Nat) (current : server.asyncFallbackTask = some n)
      (awaits : (server.tasks n).awaits = true) :
      Step storage settings server .timeout (server.setTask n .done server.db).forget
  | leave (n : Nat) (utcnow : Rat) (looping : server.tasks n = .looping)
      (stopped : server.stopEvents n = true) :
      Step storage settings server (.loop n utcnow) (server.setTask n .done server.db)
  | poll (n : Nat) (utcnow : Rat) (looping : server.tasks n = .looping)
      (running : server.stopEvents n = false) :
      Step storage settings server (.loop n utcnow)
        (server.setTask n (.passing (.passing
          (dueEventIds server.db.deliveries settings.asyncFallbackBatchSize utcnow) 0)) server.db)
  | pass (label : ServerAction) (n : Nat) (worker : Worker) (db : Database)
      (running : (server.tasks n).worker ≠ .idle)
      (moves : server.process.worker = (server.tasks n).worker → ∃ action,
        server.process.step storage settings.toSettings action =
          some { server.process with db := db, worker := worker }) :
      Step storage settings server label (server.setTask n (server.goOn settings worker) db)
  | wake (n : Nat) (deadline : Rat) (waiting : server.tasks n = .waiting deadline)
      (expired : server.stopEvents n = true ∨ deadline ≤ server.now) :
      Step storage settings server (.wake n) (server.setTask n .looping server.db)
  | submit (label : ServerAction) (i : Nat) (submit : Submit) (db : Database)
      (moves : ∃ action, server.process.step storage settings.toSettings action =
        some (server.process.move i submit db)) :
      Step storage settings server label (server.move i submit db)
  | crash : Step storage settings server .crash { server with
        submits := fun _ => .idle
        tasks := fun _ => .done
        stopEvents := fun _ => false
        asyncFallbackTask := none
        lifespan := .down }

theorem step_cases (taken : server.step storage settings action = some next) :
    Step storage settings server action next := by
  cases action with
  | tick now =>
      obtain ⟨later, same⟩ := Option.ite_none_right_eq_some.mp taken
      exact Option.some.inj same ▸ .tick now later
  | startup =>
      simp only [step] at taken
      split at taken
      · next down => exact Option.some.inj taken ▸ .startup down
      · cases taken
  | shutdown =>
      simp only [step] at taken
      split at taken
      · next up => exact Option.some.inj taken ▸ .shutdown up
      · cases taken
  | joined =>
      simp only [step] at taken
      split at taken
      · next n stopping current =>
          obtain ⟨finished, same⟩ := Option.ite_none_right_eq_some.mp taken
          exact Option.some.inj same ▸ .joined n current finished
      · cases taken
  | timeout =>
      simp only [step] at taken
      split at taken
      · next n stopping current =>
          obtain ⟨⟨_, awaits⟩, same⟩ := Option.ite_none_right_eq_some.mp taken
          exact Option.some.inj same ▸ .timeout n current awaits
      · cases taken
  | loop n utcnow =>
      simp only [step] at taken
      split at taken
      · next looping =>
          split at taken
          · next stopped => exact Option.some.inj taken ▸ .leave n utcnow looping stopped
          · next running =>
              exact Option.some.inj taken ▸ .poll n utcnow looping (Bool.not_eq_true _ ▸ running)
      · cases taken
  | take n fresh =>
      obtain ⟨⟨worker, db⟩, took, rfl⟩ := Option.map_eq_some_iff.mp taken
      apply Step.pass _ n worker db
      · intro idle
        rw [idle] at took
        cases took
      · intro same
        exact ⟨.take fresh, by simp only [Process.step, same]; exact congrArg _ took⟩
  | deliver n outcome utcnow draw =>
      obtain ⟨⟨worker, db⟩, delivered, rfl⟩ := Option.map_eq_some_iff.mp taken
      apply Step.pass _ n worker db
      · intro idle
        rw [idle] at delivered
        cases delivered
      · intro same
        exact ⟨.deliver outcome utcnow draw, by
          simp only [Process.step, same]
          exact congrArg _ delivered⟩
  | rest n =>
      simp only [step] at taken
      split at taken
      · next processed passing =>
          obtain rfl := Option.some.inj taken
          apply Step.pass _ n .idle server.db
          · rw [passing]
            exact fun idle => by cases idle
          · intro same
            exact ⟨.rest, by simp only [Process.step, same, passing]; rfl⟩
      · cases taken
  | wake n =>
      simp only [step] at taken
      split at taken
      · next deadline waiting =>
          obtain ⟨expired, same⟩ := Option.ite_none_right_eq_some.mp taken
          exact Option.some.inj same ▸ .wake n deadline waiting expired
      · cases taken
  | arrive i submission =>
      simp only [step] at taken
      split at taken
      · next idle =>
          obtain rfl := Option.some.inj taken
          apply Step.submit _ i _ server.db
          have idle : server.process.submits i = .idle := idle
          exact ⟨.arrive i submission, by simp only [Process.step, idle]; rfl⟩
      · cases taken
  | advance i =>
      obtain ⟨⟨submit, db⟩, advanced, rfl⟩ := Option.map_eq_some_iff.mp taken
      exact .submit _ i submit db ⟨.advance i, Option.map_eq_some_iff.mpr ⟨_, advanced, rfl⟩⟩
  | resume i outcome utcnow =>
      obtain ⟨⟨submit, db⟩, resumed, rfl⟩ := Option.map_eq_some_iff.mp taken
      exact .submit _ i submit db
        ⟨.resume i outcome utcnow, Option.map_eq_some_iff.mpr ⟨_, resumed, rfl⟩⟩
  | crash => exact Option.some.inj taken ▸ .crash

theorem sound_initial (storage : Storage) (settings : ServerSettings) (start : Rat) :
    (eventGateway storage settings start).initial.Sound settings where
  single _ running := by cases running
  enabled _ same := by cases same
  down _ := rfl
  known _ same := by cases same

/-- Every step keeps the server sound, and the process stays or takes a step. -/
theorem Sound.step (sound : server.Sound settings)
    (taken : server.step storage settings action = some next) :
    next.Sound settings ∧ (next.process = server.process ∨
      ∃ action, server.process.step storage settings.toSettings action = some next.process) := by
  have current {n : Nat} {task : WorkerTask} (same : server.tasks n = task)
      (running : task.isDone = false) : server.asyncFallbackTask = some n :=
    sound.single n (by rw [same, running])
  have stays {n : Nat} {task other : WorkerTask} (same : server.tasks n = task)
      (running : task.isDone = false) (kept : other.worker = task.worker) :
      (server.setTask n other server.db).process = server.process := by
    rw [setTask_process (current same running), kept, ← same,
      ← process_worker (current same running)]
    rfl
  cases step_cases taken with
  | tick now => exact ⟨⟨sound.single, sound.enabled, sound.down, sound.known⟩, .inl rfl⟩
  | startup down =>
      have free := sound.down down
      rw [startup]
      split
      · next create =>
          refine ⟨⟨fun n running => ?_, fun n _ => create.1, fun same => ?_, fun n same => ?_⟩,
            .inl ?_⟩
          · by_cases same : n = server.created
            · rw [same]
            · have finished := sound.allDone free n
              have running : (Function.update server.tasks server.created .looping n).isDone =
                false := running
              rw [Function.update_of_ne same, finished] at running
              cases running
          · cases same
          · obtain rfl := Option.some.inj same
            exact Nat.lt_succ_self _
          · simp [process, free, WorkerTask.worker]
      · refine ⟨⟨sound.single, sound.enabled, fun same => ?_, sound.known⟩, .inl rfl⟩
        cases same
  | shutdown up =>
      rw [shutdown]
      split
      · refine ⟨⟨sound.single, sound.enabled, fun same => ?_, sound.known⟩, .inl rfl⟩
        cases same
      · next free => exact ⟨⟨sound.single, sound.enabled, fun _ => free, sound.known⟩, .inl rfl⟩
  | joined n same finished => exact ⟨sound.forget same finished, .inl (forget_process same finished)⟩
  | timeout n same awaits =>
      have kept : (server.setTask n .done server.db).asyncFallbackTask = some n := same
      have ended : ((server.setTask n .done server.db).tasks n).isDone = true := by
        rw [setTask_tasks, if_pos rfl]
        rfl
      refine ⟨(sound.setTask same .done server.db).forget kept ended, ?_⟩
      rw [forget_process kept ended, setTask_process same]
      have worker := process_worker same
      generalize server.tasks n = task at worker awaits
      cases task with
      | looping | waiting | done =>
          left
          rw [show WorkerTask.done.worker = server.process.worker from worker.symm]
          rfl
      | passing pass =>
          cases pass with
          | idle | passing => cases awaits
          | calling delivery event traceId remaining processed =>
              right
              have worker : server.process.worker =
                .calling delivery event traceId remaining processed := worker
              exact ⟨.deliver .raised 0 .zero, by simp only [Process.step, worker]; rfl⟩
  | leave n utcnow looping =>
      exact ⟨sound.setTask (current looping rfl) .done server.db, .inl (stays looping rfl rfl)⟩
  | poll n utcnow looping =>
      have same := current looping rfl
      refine ⟨sound.setTask same _ server.db, .inr ⟨.poll utcnow, ?_⟩⟩
      have idle : server.process.worker = .idle := by
        rw [process_worker same, looping]
        rfl
      rw [setTask_process same]
      simp only [Process.step, idle]
      rw [if_pos (sound.enabled n same)]
      rfl
  | pass _ n worker db running moves =>
      have same := sound.single n (isDone_of_worker running)
      refine ⟨sound.setTask same _ db, .inr ?_⟩
      rw [setTask_process same, goOn_worker]
      exact moves (process_worker same)
  | wake n deadline waiting =>
      exact ⟨sound.setTask (current waiting rfl) .looping server.db, .inl (stays waiting rfl rfl)⟩
  | submit _ i submit db moves =>
      exact ⟨⟨sound.single, sound.enabled, sound.down, sound.known⟩, .inr moves⟩
  | crash =>
      refine ⟨⟨fun _ running => ?_, fun _ same => ?_, fun _ => rfl, fun _ same => ?_⟩,
        .inr ⟨.crash, rfl⟩⟩
      · cases running
      · cases same
      · cases same

end Server

theorem sound_of_reachable (reached : (eventGateway storage settings start).Reachable server) :
    server.Sound settings ∧ (gateway storage settings.toSettings).Reachable server.process :=
  reached.invariant
    (fun server => server.Sound settings ∧
      (gateway storage settings.toSettings).Reachable server.process)
    ⟨Server.sound_initial storage settings start, .initial⟩
    fun state action after before held taken => by
      obtain ⟨sound, stays | ⟨label, stepped⟩⟩ := held.1.step taken
      · exact ⟨sound, stays ▸ held.2⟩
      · exact ⟨sound, held.2.step label stepped⟩

/-- In every reachable state at most one task runs, none runs while the application is down, and
the process is one that the gateway reaches. -/
theorem single_worker (reached : (eventGateway storage settings start).Reachable server) :
    (∀ n m, (server.tasks n).isDone = false → (server.tasks m).isDone = false → n = m) ∧
      (server.lifespan = .down → ∀ n, (server.tasks n).isDone = true) ∧
      (gateway storage settings.toSettings).Reachable server.process := by
  obtain ⟨sound, process⟩ := sound_of_reachable reached
  refine ⟨fun n m first second => ?_, fun down => sound.allDone (sound.down down), process⟩
  exact Option.some.inj ((sound.single n first).symm.trans (sound.single m second))

def ServerSettings.default : ServerSettings := { Settings.default with asyncFallbackPollSeconds := 1 }

/-- The application starts, its task begins a pass, and the shutdown cancels the task. -/
def startedThenCancelled : List ServerAction :=
  [.arrive 0 ⟨creditX.event, "trace"⟩, .advance 0, .advance 0, .advance 0,
    .resume 0 (.unavailable "timeout") 0, .startup, .loop 0 0, .take 0 "fresh", .shutdown, .tick 3,
    .timeout]

theorem single_worker_cancelled : ∃ server,
    (eventGateway .wallClock .default 0).run (eventGateway .wallClock .default 0).initial
      startedThenCancelled = some server ∧
    (∀ n m, (server.tasks n).isDone = false → (server.tasks m).isDone = false → n = m) ∧
      (server.lifespan = .down → ∀ n, (server.tasks n).isDone = true) ∧
      (gateway .wallClock .default).Reachable server.process := by
  obtain ⟨server, ran⟩ := Option.isSome_iff_exists.mp
    (show ((eventGateway .wallClock .default 0).run (eventGateway .wallClock .default 0).initial
      startedThenCancelled).isSome by decide +kernel)
  exact ⟨server, ran, single_worker (Machine.reachable_of_run startedThenCancelled .initial ran)⟩

section Passes

abbrev ServerTransition := Transition Server ServerAction

variable {n : Nat} {earliest : Rat} {transition : ServerTransition}

/-- A task begins a pass when it finds its stop event unset. -/
def BeginsPass (n : Nat) (transition : ServerTransition) : Prop :=
  (∃ utcnow, transition.action = .loop n utcnow) ∧
    ∃ worker, transition.after.tasks n = .passing worker

/-- A pass ends when its task waits for the next one. -/
def EndsPass (n : Nat) (transition : ServerTransition) : Prop :=
  (∃ worker, transition.before.tasks n = .passing worker) ∧
    ∃ deadline, transition.after.tasks n = .waiting deadline

/-- A task begins no pass earlier than this, unless its stop event lets it leave its loop. -/
def WorkerTask.Paced (earliest now : Rat) (stopped : Bool) : WorkerTask → Prop
  | .looping => stopped = true ∨ earliest ≤ now
  | .passing _ => earliest ≤ now
  | .waiting deadline => earliest ≤ deadline ∨ earliest ≤ now
  | .done => True

/-- A task that was created before begins no pass earlier than this. -/
def Server.Paced (n : Nat) (earliest : Rat) (server : Server) : Prop :=
  n < server.created ∧ (server.tasks n).Paced earliest server.now (server.stopEvents n)

/-- A task that was created before begins no pass any more. -/
def Server.Stopped (n : Nat) (server : Server) : Prop :=
  n < server.created ∧ ((server.tasks n).isDone = true ∨ server.stopEvents n = true)

/-- Only the stop event of a task, the clock and the task itself pace it. -/
theorem Server.Paced.frame {next : Server} (paced : server.Paced n earliest)
    (created : server.created ≤ next.created) (tasks : next.tasks n = server.tasks n)
    (stops : server.stopEvents n = true → next.stopEvents n = true)
    (now : server.now ≤ next.now) : next.Paced n earliest := by
  obtain ⟨known, held⟩ := paced
  refine ⟨lt_of_lt_of_le known created, ?_⟩
  rw [tasks]
  generalize server.tasks n = task at held
  cases task with
  | done => trivial
  | looping => exact held.imp stops fun early => le_trans early now
  | passing worker => exact le_trans held now
  | waiting deadline => exact held.imp_right fun early => le_trans early now

/-- Every step keeps a task paced. -/
theorem Server.Paced.step {next : Server} (paced : server.Paced n earliest)
    (taken : server.step storage settings action = some next) : next.Paced n earliest := by
  have other {m : Nat} {task : WorkerTask} {db : Database} (different : n ≠ m) :
      (server.setTask m task db).Paced n earliest :=
    paced.frame le_rfl (by rw [setTask_tasks, if_neg different]) id le_rfl
  have own {task : WorkerTask} {db : Database}
      (held : task.Paced earliest server.now (server.stopEvents n)) :
      (server.setTask n task db).Paced n earliest := by
    refine ⟨paced.1, ?_⟩
    rw [setTask_tasks, if_pos rfl]
    exact held
  cases step_cases taken with
  | tick now later => exact paced.frame le_rfl rfl id later
  | startup down =>
      rw [startup]
      split
      · refine paced.frame (Nat.le_succ _) (Function.update_of_ne paced.1.ne _ _) (fun stop => ?_)
          le_rfl
        exact (Function.update_of_ne paced.1.ne _ _).trans stop
      · exact paced.frame le_rfl rfl id le_rfl
  | shutdown up =>
      rw [shutdown]
      split
      · next m current =>
          refine paced.frame le_rfl rfl (fun stop => ?_) le_rfl
          by_cases same : n = m
          · rw [same]
            exact Function.update_self _ _ _
          · exact (Function.update_of_ne same _ _).trans stop
      · exact paced.frame le_rfl rfl id le_rfl
  | joined => exact paced.frame le_rfl rfl id le_rfl
  | timeout m =>
      have cancelled : (server.setTask m .done server.db).Paced n earliest := by
        by_cases same : n = m
        · exact same ▸ own trivial
        · exact other same
      exact cancelled.frame le_rfl rfl id le_rfl
  | leave m =>
      by_cases same : n = m
      · exact same ▸ own trivial
      · exact other same
  | poll m utcnow looping running =>
      by_cases same : n = m
      · subst same
        have early := paced.2
        rw [looping] at early
        refine own (early.resolve_left ?_)
        rw [running]
        decide
      · exact other same
  | pass _ m worker db running =>
      by_cases same : n = m
      · subst same
        have early : earliest ≤ server.now := by
          have held := paced.2
          generalize server.tasks n = task at held running
          cases task with
          | passing worker => exact held
          | looping | waiting | done => exact absurd rfl running
        cases worker with
        | idle => exact own (.inr early)
        | passing | calling => exact own early
      · exact other same
  | wake m deadline waiting expired =>
      by_cases same : n = m
      · subst same
        have early := paced.2
        rw [waiting] at early
        refine own (expired.imp_right fun reached => ?_)
        exact early.elim (fun bound => le_trans bound reached) id
      · exact other same
  | submit => exact paced.frame le_rfl rfl id le_rfl
  | crash => exact ⟨paced.1, trivial⟩

/-- A task whose stop event is set stays stopped. -/
theorem Server.Stopped.step {next : Server} (stopped : server.Stopped n)
    (taken : server.step storage settings action = some next) : next.Stopped n := by
  have other {m : Nat} {task : WorkerTask} {db : Database} (different : n ≠ m) :
      (server.setTask m task db).Stopped n := by
    refine ⟨stopped.1, ?_⟩
    rw [setTask_tasks, if_neg different]
    exact stopped.2
  have own {task : WorkerTask} {db : Database} (finished : task.isDone = true) :
      (server.setTask n task db).Stopped n := by
    refine ⟨stopped.1, .inl ?_⟩
    rw [setTask_tasks, if_pos rfl]
    exact finished
  -- A task that is not done has its stop event set, and keeps it.
  have set {m : Nat} {task : WorkerTask} {db : Database} (running : (server.tasks m).isDone = false) :
      (server.setTask m task db).Stopped n := by
    by_cases same : n = m
    · subst same
      refine ⟨stopped.1, .inr (stopped.2.resolve_left fun finished => ?_)⟩
      rw [running] at finished
      cases finished
    · exact other same
  cases step_cases taken with
  | tick | joined | submit => exact stopped
  | startup down =>
      rw [startup]
      split
      · refine ⟨Nat.lt_succ_of_lt stopped.1, stopped.2.imp (fun finished => ?_) fun stop => ?_⟩
        · rw [← finished]
          exact congrArg WorkerTask.isDone (Function.update_of_ne stopped.1.ne _ _)
        · exact (Function.update_of_ne stopped.1.ne _ _).trans stop
      · exact stopped
  | shutdown up =>
      rw [shutdown]
      split
      · next m current =>
          refine ⟨stopped.1, stopped.2.imp_right fun stop => ?_⟩
          by_cases same : n = m
          · rw [same]
            exact Function.update_self _ _ _
          · exact (Function.update_of_ne same _ _).trans stop
      · exact stopped
  | timeout m =>
      have cancelled : (server.setTask m .done server.db).Stopped n := by
        by_cases same : n = m
        · exact same ▸ own rfl
        · exact other same
      exact cancelled
  | leave m utcnow looping => exact set (by rw [looping]; rfl)
  | poll m utcnow looping => exact set (by rw [looping]; rfl)
  | pass _ m worker db running => exact set (isDone_of_worker running)
  | wake m deadline waiting => exact set (by rw [waiting]; rfl)
  | crash => exact ⟨stopped.1, .inl rfl⟩

/-- A task that begins a pass has found its stop event unset. -/
theorem BeginsPass.looping (begins : BeginsPass n transition)
    (taken : transition.before.step storage settings transition.action = some transition.after) :
    transition.before.tasks n = .looping ∧ transition.before.stopEvents n = false := by
  obtain ⟨⟨utcnow, looped⟩, worker, passing⟩ := begins
  rw [looped] at taken
  simp only [Server.step] at taken
  split at taken
  · next looping =>
      refine ⟨looping, ?_⟩
      split at taken
      · rw [← Option.some.inj taken, Server.setTask_tasks, if_pos rfl] at passing
        cases passing
      · next running => exact Bool.not_eq_true _ ▸ running
  · cases taken

/-- A shutdown stops every task that was created before. -/
theorem Server.Sound.stopped (sound : server.Sound settings) (known : n < server.created)
    (taken : server.step storage settings .shutdown = some next) : next.Stopped n := by
  simp only [Server.step] at taken
  split at taken
  · obtain rfl := Option.some.inj taken
    rw [Server.shutdown]
    split
    · next m current =>
        refine ⟨known, ?_⟩
        cases running : (server.tasks n).isDone with
        | true => exact .inl rfl
        | false =>
            have same := sound.single n running
            rw [current] at same
            obtain rfl := Option.some.inj same
            exact .inr (Function.update_self _ _ _)
    · next free => exact ⟨known, .inl (sound.allDone free n)⟩
  · cases taken

/-- The end of a pass paces its task from then on. -/
theorem EndsPass.paced (ends : EndsPass n ⟨server, action, next⟩) (sound : server.Sound settings)
    (taken : server.step storage settings action = some next) :
    next.Paced n (server.now + settings.asyncFallbackPollSeconds) := by
  obtain ⟨⟨pass, passing⟩, deadline, waiting⟩ := ends
  have known := sound.known n (sound.single n (by rw [passing]; rfl))
  have moved : next.tasks n ≠ server.tasks n := by
    rw [passing, waiting]
    exact fun same => by cases same
  have own {m : Nat} {task : WorkerTask} {db : Database}
      (set : next = server.setTask m task db) : n = m ∧ task = .waiting deadline := by
    by_cases same : n = m
    · rw [set, Server.setTask_tasks, if_pos same] at waiting
      exact ⟨same, waiting⟩
    · rw [set, Server.setTask_tasks, if_neg same] at moved
      exact absurd rfl moved
  cases Server.step_cases taken with
  | tick | submit | joined => exact absurd rfl moved
  | startup down =>
      rw [Server.startup] at moved
      split at moved
      · exact absurd (Function.update_of_ne known.ne _ _) moved
      · exact absurd rfl moved
  | shutdown up =>
      rw [Server.shutdown] at moved
      split at moved <;> exact absurd rfl moved
  | timeout m =>
      have cancelled : (server.setTask m .done server.db).tasks n = .waiting deadline := waiting
      rw [Server.setTask_tasks] at cancelled
      split at cancelled
      · cases cancelled
      · rw [passing] at cancelled
        cases cancelled
  | leave m => cases (own rfl).2
  | poll m => cases (own rfl).2
  | wake m => cases (own rfl).2
  | pass _ m worker db running =>
      obtain ⟨same, ended⟩ := own rfl
      refine ⟨known, ?_⟩
      rw [Server.setTask_tasks, if_pos same]
      cases worker with
      | idle => exact .inl le_rfl
      | passing | calling => cases ended
  | crash => cases waiting

/-- A task begins no pass sooner than the poll interval after the end of its last one, and every
pass after a shutdown belongs to a task that a later startup has created. -/
theorem passes_paced {first last : Server} {earlier middle later : Trace Server ServerAction}
    {begun : ServerTransition}
    (reached : (eventGateway storage settings start).Reachable first)
    (runs : (eventGateway storage settings start).Runs first last
      (earlier ++ transition :: (middle ++ begun :: later))) (begins : BeginsPass n begun) :
    (EndsPass n transition →
        transition.before.now + settings.asyncFallbackPollSeconds ≤ begun.before.now) ∧
      (transition.action = .shutdown → transition.before.created ≤ n) := by
  obtain ⟨before, taken, rest⟩ := runs.split
  obtain ⟨between, starts, _⟩ := rest.split
  have sound := (sound_of_reachable (before.reachable reached)).1
  have reached := (before.reachable reached).step _ taken
  obtain ⟨looping, unset⟩ := begins.looping starts
  constructor
  · intro ends
    have paced : begun.before.Paced n (transition.before.now + settings.asyncFallbackPollSeconds) :=
      between.leads.persists
        (Server.Paced n (transition.before.now + settings.asyncFallbackPollSeconds))
        (fun _ _ _ _ paced taken => Server.Paced.step paced taken) reached (ends.paced sound taken)
    have early := paced.2
    rw [looping] at early
    refine early.resolve_left ?_
    rw [unset]
    decide
  · intro stopping
    by_contra known
    have stops : transition.before.step storage settings .shutdown = some transition.after :=
      stopping ▸ taken
    have stopped : begun.before.Stopped n :=
      between.leads.persists (Server.Stopped n)
        (fun _ _ _ _ stopped taken => Server.Stopped.step stopped taken) reached
        (sound.stopped (Nat.lt_of_not_le known) stops)
    obtain finished | set := stopped.2
    · rw [looping] at finished
      cases finished
    · rw [unset] at set
      cases set

/-- The application starts, and its task makes a pass, waits for a second and makes another one. -/
def firstServer : Server := (eventGateway .wallClock .default 0).initial
def startedServer : Server := firstServer.startup .default
def passingServer : Server := startedServer.setTask 0 (.passing (.passing [] 0)) .empty
def waitingServer : Server := passingServer.setTask 0 (.waiting (0 + 1)) .empty
def laterServer : Server := { waitingServer with now := 1 }
def wokenServer : Server := laterServer.setTask 0 .looping .empty
def passingAgain : Server := wokenServer.setTask 0 (.passing (.passing [] 0)) .empty

def firstRest : ServerTransition := ⟨passingServer, .rest 0, waitingServer⟩
def nextPass : ServerTransition := ⟨wokenServer, .loop 0 1, passingAgain⟩

theorem twoPasses_runs : (eventGateway .wallClock .default 0).Runs startedServer passingAgain
    ([⟨startedServer, .loop 0 0, passingServer⟩] ++ firstRest ::
      ([⟨waitingServer, .tick 1, laterServer⟩, ⟨laterServer, .wake 0, wokenServer⟩] ++
        nextPass :: [])) := by
  have ticks : (eventGateway .wallClock .default 0).step waitingServer (.tick 1) = some laterServer := by
    change (if waitingServer.now ≤ 1 then some laterServer else none) = some laterServer
    exact if_pos (by decide +kernel)
  have wakes : (eventGateway .wallClock .default 0).step laterServer (.wake 0) = some wokenServer := by
    change (if laterServer.stopEvents 0 = true ∨ (0 + 1 : Rat) ≤ laterServer.now
      then some wokenServer else none) = some wokenServer
    exact if_pos (.inr (by decide +kernel))
  have runs : (eventGateway .wallClock .default 0).Runs startedServer passingAgain
      ([] ++ [⟨startedServer, .loop 0 0, passingServer⟩] ++ [firstRest] ++
        [⟨waitingServer, .tick 1, laterServer⟩] ++ [⟨laterServer, .wake 0, wokenServer⟩] ++
        [nextPass]) :=
    .step _ (.step _ (.step _ (.step _ (.step _ .refl rfl) rfl) ticks) wakes) rfl
  exact runs

theorem passes_paced_second :
    firstRest.before.now + ServerSettings.default.asyncFallbackPollSeconds ≤ nextPass.before.now :=
  (passes_paced (n := 0) (Machine.Reachable.initial.step .startup rfl) twoPasses_runs
    ⟨⟨1, rfl⟩, _, rfl⟩).1 ⟨⟨_, rfl⟩, _, rfl⟩

end Passes

end EventLedger.EventGateway
