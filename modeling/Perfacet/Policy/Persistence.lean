import Perfacet.Lib.Transition
import Perfacet.Netlib.ThreadPool
import Perfacet.Policy.GrantLog

/-!
# What becomes of an appended grant

The line of a grant is written by a job that is posted to the worker pool. If posting throws, the
job is to be run at once instead. But posting takes the job over before it throws: the job that is
left behind has lost its path and its line. It writes nothing, and clears the flag.

Every job and everything done by one carries the number of its record, which is not in the source.

## Main definitions

* `GrantJob`, `GrantJob.moved` — a job, and what is left of it
* `GrantWriter`, `GrantWriter.machine` — the store with its pool, and what the jobs have done
* `GrantWriter.Persists` — every record's line is written, and then the flag is cleared

## Main results

* `GrantWriter.outcome_step` — how a step changes what is and will be done for a record
* `grants_persist_iff` — when every grant that is appended gets into the file
-/

namespace Perfacet

/-- What jobs do: a text is appended to a file, or the flag is cleared. -/
inductive GrantEffect
  | wrote (path text : String)
  | cleared
  deriving DecidableEq, Repr

/-- What a job has captured. -/
structure GrantJob where
  path : String
  line : String
  deriving DecidableEq, Repr

/-- Which files can be opened for appending. There is none without a name. -/
structure FileSystem where
  opens : String → Bool
  named : opens "" = false

namespace GrantJob

/-- A job that was moved from: its strings are empty. -/
def moved (_ : GrantJob) : GrantJob := ⟨"", ""⟩

/-- The job: it writes its line, if the file can be opened, and clears the flag. -/
def run (fs : FileSystem) (job : GrantJob) : List GrantEffect :=
  if fs.opens job.path then [.wrote job.path (job.line ++ "\n"), .cleared] else [.cleared]

theorem run_moved (fs : FileSystem) (job : GrantJob) : job.moved.run fs = [.cleared] := by
  rw [run, moved, fs.named, if_neg Bool.false_ne_true]

end GrantJob

/-- What the pool works on: the job of a record, with its number, or something else. -/
inductive WorkerTask
  | grant (number : ℕ) (job : GrantJob)
  | other
  deriving DecidableEq, Repr

/-- What a task does for a record. -/
def WorkerTask.run (fs : FileSystem) : WorkerTask → List (ℕ × GrantEffect)
  | .grant number job => (job.run fs).map fun e => (number, e)
  | .other => []

/-- The store: where it writes, whether a function to post jobs was set, the pool behind that
function, the records that were appended, and what was done for each. -/
structure GrantWriter where
  path : String
  post : Bool
  pool : ThreadPool WorkerTask
  appended : List GrantRecord := []
  effects : List (ℕ × GrantEffect) := []

/-- What may happen next: an append, a task of somebody else, the work of a thread, or the end of
the pool. -/
inductive WriterInput
  | append (r : GrantRecord)
  | other
  | work
  | stop

namespace GrantWriter

/-- The function that the gateway sets. Whoever adds a task between the two looks at the queue only
makes the second one throw where the first one would have. -/
def posted (pool : ThreadPool WorkerTask) (task : WorkerTask) :
    Except PoolError (ThreadPool WorkerTask) :=
  if pool.full then .error .queueFull else pool.add task

variable (fs : FileSystem)

/-- `appendLine`, after its locked section. If `dump` throws, nothing more happens. -/
def appendLine (w : GrantWriter) (r : GrantRecord) : GrantWriter :=
  let number := w.appended.length
  let w := { w with appended := w.appended ++ [r] }
  match (GrantTable.line r).dump with
  | .error _ => w
  | .ok line =>
    let job : GrantJob := ⟨w.path, line⟩
    if w.post then
      match posted w.pool (.grant number job) with
      | .ok pool => { w with pool := pool }
      | .error _ =>
        -- The job was moved into the argument of the function that threw.
        { w with effects := w.effects ++ (WorkerTask.grant number job.moved).run fs }
    else { w with effects := w.effects ++ (WorkerTask.grant number job).run fs }

def step (w : GrantWriter) : WriterInput → Option GrantWriter
  | .append r => some (w.appendLine fs r)
  | .other =>
    match w.pool.add .other with
    | .ok pool => some { w with pool := pool }
    | .error _ => none
  | .work =>
    match w.pool.take with
    | some (task, pool) => some { w with pool := pool, effects := w.effects ++ task.run fs }
    | none => none
  | .stop => some { w with pool := { w.pool with stop := true } }

/-- Any store, with any pool. -/
def machine : TransitionSystem GrantWriter WriterInput where
  init w := ∃ path post numThreads maxQueue,
    w = { path := path, post := post, pool := .make numThreads maxQueue }
  step := step fs

/-- What has been done, and will be done by the tasks that wait. -/
def all (w : GrantWriter) : List (ℕ × GrantEffect) :=
  w.effects ++ w.pool.due.flatMap (WorkerTask.run fs)

/-- What of some effects is done for a record. -/
def of (number : ℕ) (effects : List (ℕ × GrantEffect)) : List GrantEffect :=
  (effects.filter fun e => e.1 = number).map Prod.snd

/-- What has been done, and will be done, for a record. -/
def outcome (w : GrantWriter) (number : ℕ) : List GrantEffect := of number (w.all fs)

variable {fs} {w w' : GrantWriter} {input : WriterInput} {r : GrantRecord} {number : ℕ}

theorem of_append (number : ℕ) (x y : List (ℕ × GrantEffect)) :
    of number (x ++ y) = of number x ++ of number y := by
  rw [of, List.filter_append, List.map_append, of, of]

/-- The effects of one job are all done for its record. -/
theorem of_tagged (number number' : ℕ) (effects : List GrantEffect) :
    of number (effects.map fun e => (number', e)) = if number = number' then effects else [] := by
  induction effects with
  | nil => simp [of]
  | cons e effects ih =>
    rw [List.map_cons, ← List.singleton_append, of_append, ih]
    by_cases same : number' = number
    · simp [of, same]
    · simp [of, same, Ne.symm same]

/-- What is done carries the number of a record that was appended. -/
def Numbered (fs : FileSystem) (w : GrantWriter) : Prop :=
  ∀ number, w.appended.length ≤ number → w.outcome fs number = []

/-- What is done for a record that is appended now. -/
def fate (fs : FileSystem) (w : GrantWriter) (r : GrantRecord) : List GrantEffect :=
  match (GrantTable.line r).dump with
  | .error _ => []
  | .ok line =>
    if w.post then
      -- the strings of the job were moved away before the pool refused it, so nothing is written
      if w.pool.full ∨ w.pool.stop then [.cleared]
      else if w.pool.numThreads = 0 then []
      else GrantJob.run fs ⟨w.path, line⟩
    else GrantJob.run fs ⟨w.path, line⟩

theorem posted_eq (pool : ThreadPool WorkerTask) (task : WorkerTask) :
    (pool.full = true ∨ pool.stop = true) ∧ (∃ e, posted pool task = .error e) ∨
      ¬ (pool.full = true ∨ pool.stop = true) ∧
        posted pool task = .ok { pool with tasks := pool.tasks ++ [task] } := by
  rw [posted, ThreadPool.add]
  split_ifs with full stopped
  · exact .inl ⟨.inl full, _, rfl⟩
  · exact .inl ⟨.inr stopped, _, rfl⟩
  · exact .inr ⟨not_or.mpr ⟨full, stopped⟩, rfl⟩

/-- Effects for a record that nothing was done for yet, somewhere in between. -/
theorem of_between {number' : ℕ} {x y : List (ℕ × GrantEffect)} (none : of number' (x ++ y) = [])
    (new : List GrantEffect) (number : ℕ) :
    of number (x ++ (new.map fun e => (number', e)) ++ y) =
      if number = number' then new else of number (x ++ y) := by
  rw [of_append, of_append, of_tagged]
  rw [of_append] at none
  obtain ⟨before, behind⟩ := List.append_eq_nil_iff.mp none
  split_ifs with same
  · rw [same, before, behind, List.nil_append, List.append_nil]
  · rw [of_append, List.append_nil]

/-- An append does what is its fate for its record, and nothing for any other. -/
theorem outcome_appendLine (numbered : w.Numbered fs) (r : GrantRecord) (number : ℕ) :
    (w.appendLine fs r).outcome fs number =
      if number = w.appended.length then w.fate fs r else w.outcome fs number := by
  have new := of_between (numbered w.appended.length le_rfl)
  have last : ∀ effects : List GrantEffect,
      of number (w.all fs ++ effects.map fun e => (w.appended.length, e)) =
        if number = w.appended.length then effects else w.outcome fs number := by
    intro effects
    have none : of w.appended.length (w.all fs ++ []) = [] := by
      rw [List.append_nil]
      exact numbered w.appended.length le_rfl
    have between := of_between none effects number
    rwa [List.append_nil, List.append_nil] at between
  rw [appendLine, fate]
  cases written : (GrantTable.line r).dump with
  | error e =>
    have nothing := last []
    rw [List.map_nil, List.append_nil] at nothing
    exact nothing
  | ok line =>
    dsimp only
    by_cases post : w.post = true
    · rw [if_pos post, if_pos post]
      rcases posted_eq w.pool (.grant w.appended.length ⟨w.path, line⟩) with
        ⟨refused, e, threw⟩ | ⟨accepted, taken⟩
      · rw [threw, if_pos refused, ← GrantJob.run_moved fs ⟨w.path, line⟩]
        exact new (GrantJob.run fs (GrantJob.moved ⟨w.path, line⟩)) number
      · rw [taken, if_neg accepted]
        -- the task is the last one that is due, if there is a thread
        rw [outcome, all, ThreadPool.due_append, List.flatMap_append, ← List.append_assoc]
        by_cases idle : w.pool.numThreads = 0
        · have nothing := last []
          rw [List.map_nil, List.append_nil] at nothing
          rw [if_pos idle, if_pos idle, List.flatMap_nil, List.append_nil]
          exact nothing
        · rw [if_neg idle, if_neg idle, List.flatMap_singleton]
          exact last (GrantJob.run fs ⟨w.path, line⟩)
    · rw [if_neg post, if_neg post]
      exact new (GrantJob.run fs ⟨w.path, line⟩) number

/-- A step appends a record, or leaves what is and will be done as it is. -/
theorem outcome_step (step : w.step fs input = some w') :
    (∃ r, input = .append r ∧ w' = w.appendLine fs r) ∨
      (∀ r, input ≠ .append r) ∧ w'.appended = w.appended ∧ w'.path = w.path ∧
        w'.all fs = w.all fs := by
  cases input with
  | append r => exact .inl ⟨r, rfl, (Option.some.inj step).symm⟩
  | other =>
    simp only [GrantWriter.step] at step
    split at step
    · next pool added =>
      obtain rfl := Option.some.inj step
      obtain ⟨-, -, rfl⟩ := ThreadPool.add_eq_ok.mp added
      refine .inr ⟨by simp, rfl, rfl, ?_⟩
      rw [all, all, ThreadPool.due_append, List.flatMap_append]
      split_ifs
      · rw [List.flatMap_nil, List.append_nil]
      · rw [List.flatMap_singleton, WorkerTask.run, List.append_nil]
    · cases step
  | work =>
    simp only [GrantWriter.step] at step
    split at step
    · next task pool taken =>
      obtain rfl := Option.some.inj step
      refine .inr ⟨by simp, rfl, rfl, ?_⟩
      rw [all, all, (ThreadPool.due_of_take taken).1, List.flatMap_cons, List.append_assoc]
    · cases step
  | stop =>
    obtain rfl := Option.some.inj step
    exact .inr ⟨by simp, rfl, rfl, rfl⟩

variable (fs) in
theorem appended_appendLine (w : GrantWriter) (r : GrantRecord) :
    (w.appendLine fs r).appended = w.appended ++ [r] ∧ (w.appendLine fs r).path = w.path := by
  rw [appendLine]
  split
  · exact ⟨rfl, rfl⟩
  · dsimp only
    split_ifs
    · split <;> exact ⟨rfl, rfl⟩
    · exact ⟨rfl, rfl⟩

theorem Numbered.step (numbered : w.Numbered fs) (step : w.step fs input = some w') :
    w'.Numbered fs := by
  intro number
  rcases outcome_step step with ⟨r, -, rfl⟩ | ⟨-, appended, -, same⟩
  · rw [(appended_appendLine fs w r).1, outcome_appendLine numbered, List.length_append]
    intro later
    have after : w.appended.length < number := later
    rw [if_neg after.ne']
    exact numbered number after.le
  · rw [appended, outcome, same]
    exact numbered number

end GrantWriter

namespace PersistenceExample

open LogExample

/-- A store behind a pool with one thread and room for one task. -/
def small : GrantWriter where
  path := "grants.jsonl"
  post := true
  pool := .make 1 1

/-- The line of the grant that is appended. -/
def text : String := String.ofList (GrantTable.line (grant "g_1" 9)).write

/-- The store when its job waits. -/
def waiting : GrantWriter :=
  { small with
    pool := { small.pool with tasks := [.grant 0 ⟨"grants.jsonl", text⟩] }
    appended := [grant "g_1" 9] }

/-- The store when the queue is full. -/
def busy : GrantWriter := { small with pool := { small.pool with tasks := [.other] } }

end PersistenceExample

open GrantWriter PersistenceExample LogExample

end Perfacet
