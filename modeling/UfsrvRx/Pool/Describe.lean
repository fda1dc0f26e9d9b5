import UfsrvRx.Pool.Names
import UfsrvRx.Text.Writing

namespace UfsrvRx
namespace Pool

open Text
open Text.Json (Reads Member booleanText quoted objectText membersText elementsText isPlain)

/-!
# `DescribeScheduler`

The text that `DescribeScheduler` appends to the descriptor, and what a JSON decoder makes of it.
-/

/-! ## The text -/

/-- One turn of the loop of `sDescribeJsonString`. -/
def describeByte (byte : Byte) : List Byte :=
  if byte = 34 then ascii "\\\""
  else if byte = 92 then ascii "\\\\"
  else if byte = 10 then ascii "\\n"
  else if byte = 9 then ascii "\\t"
  else [byte]

/-- `sDescribeJsonString`. -/
def describeJsonString : Option CString -> List Byte
  | none => ascii "null"
  | some text => ascii "\"" ++ text.bytes.flatMap describeByte ++ ascii "\""

/-- `sDescribeWorker`. -/
def describeWorker (worker : Worker) : List Byte :=
  ascii "\n    \x7b\"name\":" ++ describeJsonString worker.name ++
    ascii ",\"is_running\":" ++ booleanText worker.isRunning ++
    ascii ",\"is_started\":" ++ booleanText worker.isStarted ++
    ascii ",\"is_joined\":" ++ booleanText worker.isJoined ++
    ascii ",\"is_worker_id_ready\":" ++ booleanText worker.isWorkerIdReady ++
    (if worker.isWorkerIdReady then ascii ",\"worker_id\":" ++ decimal worker.workerId
      else ascii ",\"worker_id\":null") ++
    ascii ",\"event_fd\":" ++ integer worker.eventFd ++ ascii "\x7d"

/-- The loop of `DescribeScheduler`. -/
def describeWorkers (asked : Option CString) : Bool -> List Worker -> List Byte
  | _, [] => []
  | emitted, worker :: workers =>
      if worker.chosen asked then
        (if emitted then ascii "," else []) ++ describeWorker worker ++
          describeWorkers asked true workers
      else describeWorkers asked emitted workers

/-- What `DescribeScheduler` appends. -/
def describeScheduler (pool : Option SchedulerPool) (asked : Option CString) : List Byte :=
  match pool with
  | none => ascii "\x7b\"worker_pool_sz\":0,\"workers\":[]\x7d\n"
  | some pool =>
      ascii "\x7b\"worker_pool_sz\":" ++ integer pool.workers.length ++
        ascii ",\"round_robin_next\":" ++ decimal pool.next ++
        ascii ",\"pool_is_running\":" ++ booleanText pool.isRunning ++
        ascii ",\"workers\":[" ++ describeWorkers asked false pool.workers ++ ascii "\n]\x7d\n"

/-! ## What it says -/

/-- A worker as it is described. -/
structure WorkerView where
  name : Option (List Byte)
  isRunning : Bool
  isStarted : Bool
  isJoined : Bool
  isWorkerIdReady : Bool
  workerId : Option Nat
  eventFd : Int
deriving DecidableEq

def Worker.view (worker : Worker) : WorkerView where
  name := worker.name.map CString.bytes
  isRunning := worker.isRunning
  isStarted := worker.isStarted
  isJoined := worker.isJoined
  isWorkerIdReady := worker.isWorkerIdReady
  workerId := if worker.isWorkerIdReady then some worker.workerId else none
  eventFd := worker.eventFd

namespace Decoded

def bytes : Json -> Option (Option (List Byte))
  | .null => some none
  | .string bytes => some (some bytes)
  | _ => none

def boolean : Json -> Option Bool
  | .boolean flag => some flag
  | _ => none

def integer : Json -> Option Int
  | .number number 0 => some number
  | _ => none

def natural : Json -> Option (Option Nat)
  | .null => some none
  | .number (.ofNat number) 0 => some (some number)
  | _ => none

/-- The worker that an element of the array describes. -/
def worker (json : Json) : Option WorkerView := do
  let name <- (json.member (ascii "name")).bind bytes
  let isRunning <- (json.member (ascii "is_running")).bind boolean
  let isStarted <- (json.member (ascii "is_started")).bind boolean
  let isJoined <- (json.member (ascii "is_joined")).bind boolean
  let isWorkerIdReady <- (json.member (ascii "is_worker_id_ready")).bind boolean
  let workerId <- (json.member (ascii "worker_id")).bind natural
  let eventFd <- (json.member (ascii "event_fd")).bind integer
  some ⟨name, isRunning, isStarted, isJoined, isWorkerIdReady, workerId, eventFd⟩

/-- The workers array of a document. -/
def workers (document : Json) : Option (List WorkerView) :=
  match document.member (ascii "workers") with
  | some (.array elements) => elements.mapM worker
  | _ => none

end Decoded

/-- The workers that are described. -/
def matching (pool : Option SchedulerPool) (asked : Option CString) : List Worker :=
  match pool with
  | none => []
  | some pool => pool.workers.filter (Worker.chosen asked)

/-- The text is a JSON document whose workers array is the list of the workers. -/
def Describes (text : List Byte) (workers : List Worker) : Prop :=
  Exists fun document => Json.decode text = some document ∧
    Decoded.workers document = some (workers.map Worker.view)

/-! ## Strings -/

/-- Not a control character, or one that is escaped. -/
def isDescribed (byte : Byte) : Bool :=
  !(byte < 32) || byte == 10 || byte == 9

def Worker.clean (worker : Worker) : Bool :=
  worker.name.all fun name => name.bytes.all isDescribed

theorem stringReads_describe (bytes : List Byte) :
    Json.StringReads (bytes.flatMap describeByte)
      (if bytes.all isDescribed then some bytes else none) := by
  intro rest
  induction bytes with
  | nil => rfl
  | cons byte bytes inductionHypothesis =>
      have text : (byte :: bytes).flatMap describeByte ++ 34 :: rest =
          describeByte byte ++ (bytes.flatMap describeByte ++ 34 :: rest) := by simp
      rw [text]
      generalize bytes.flatMap describeByte ++ 34 :: rest = others at inductionHypothesis
      rw [List.all_cons]
      unfold describeByte
      split
      · rename_i quote
        rw [quote]
        change (Json.stringBody .between others).map _ = _
        rw [inductionHypothesis]
        cases bytes.all isDescribed <;> rfl
      · split
        · rename_i backslash
          rw [backslash]
          change (Json.stringBody .between others).map _ = _
          rw [inductionHypothesis]
          cases bytes.all isDescribed <;> rfl
        · split
          · rename_i newline
            rw [newline]
            change (Json.stringBody .between others).map _ = _
            rw [inductionHypothesis]
            cases bytes.all isDescribed <;> rfl
          · split
            · rename_i tab
              rw [tab]
              change (Json.stringBody .between others).map _ = _
              rw [inductionHypothesis]
              cases bytes.all isDescribed <;> rfl
            · rename_i quote backslash newline tab
              by_cases control : byte < 32
              · simp [Json.stringBody, quote, backslash, control, isDescribed, newline, tab]
              · rw [List.singleton_append]
                simp only [Json.stringBody, quote, backslash, control, if_false,
                  inductionHypothesis]
                simp only [isDescribed, control]
                cases bytes.all isDescribed <;> rfl

/-- The outcome of a name. -/
def nameOutcome : Option CString -> Option Json
  | none => some .null
  | some name => (if name.bytes.all isDescribed then some name.bytes else none).map .string

theorem reads_name (name : Option CString) :
    Reads (describeJsonString name) (nameOutcome name) := by
  cases name with
  | none => exact Json.reads_null
  | some name =>
      have reads := Json.reads_quoted (stringReads_describe name.bytes)
      have same : describeJsonString (some name) = quoted (name.bytes.flatMap describeByte) := rfl
      rw [same]
      exact reads

/-! ## Workers -/

/-- The worker id, or null. -/
def idText (worker : Worker) : List Byte :=
  if worker.isWorkerIdReady then decimal worker.workerId else ascii "null"

def idJson (worker : Worker) : Json :=
  if worker.isWorkerIdReady then .number worker.workerId 0 else .null

theorem reads_id (worker : Worker) : Reads (idText worker) (some (idJson worker)) := by
  unfold idText idJson
  split
  · exact Json.reads_decimal worker.workerId
  · exact Json.reads_null

def workerMembers (worker : Worker) : List Member :=
  [⟨ascii "name", _, _, by decide, reads_name worker.name⟩,
    ⟨ascii "is_running", _, _, by decide, Json.reads_boolean worker.isRunning⟩,
    ⟨ascii "is_started", _, _, by decide, Json.reads_boolean worker.isStarted⟩,
    ⟨ascii "is_joined", _, _, by decide, Json.reads_boolean worker.isJoined⟩,
    ⟨ascii "is_worker_id_ready", _, _, by decide, Json.reads_boolean worker.isWorkerIdReady⟩,
    ⟨ascii "worker_id", _, _, by decide, reads_id worker⟩,
    ⟨ascii "event_fd", _, _, by decide, Json.reads_integer worker.eventFd⟩]

theorem describeWorker_eq (worker : Worker) :
    describeWorker worker = ascii "\n    " ++ objectText (workerMembers worker) := by
  have id : (if worker.isWorkerIdReady then ascii ",\"worker_id\":" ++ decimal worker.workerId
      else ascii ",\"worker_id\":null") = ascii ",\"worker_id\":" ++ idText worker := by
    unfold idText
    split <;> rfl
  unfold describeWorker
  rw [id]
  simp only [List.append_assoc]
  rfl

/-- The object of a worker. -/
def workerJson (worker : Worker) : Json :=
  .object
    [(ascii "name", worker.name.elim .null fun name => .string name.bytes),
      (ascii "is_running", .boolean worker.isRunning),
      (ascii "is_started", .boolean worker.isStarted),
      (ascii "is_joined", .boolean worker.isJoined),
      (ascii "is_worker_id_ready", .boolean worker.isWorkerIdReady),
      (ascii "worker_id", idJson worker),
      (ascii "event_fd", .number worker.eventFd 0)]

def workerOutcome (worker : Worker) : Option Json :=
  if worker.clean then some (workerJson worker) else none

theorem reads_worker (worker : Worker) : Reads (describeWorker worker) (workerOutcome worker) := by
  have reads := Json.reads_object (workerMembers worker) (List.cons_ne_nil _ _)
  have outcome : ((workerMembers worker).mapM Member.read).map .object = workerOutcome worker := by
    rcases worker with ⟨name, isRunning, isStarted, isJoined, isWorkerIdReady, workerId, eventFd⟩
    cases name with
    | none => rfl
    | some name =>
        simp only [workerMembers, List.mapM_cons, List.mapM_nil, Member.read, nameOutcome]
        generalize same : (⟨some name, isRunning, isStarted, isJoined, isWorkerIdReady, workerId,
          eventFd⟩ : Worker) = worker
        have clean : worker.clean = name.bytes.all isDescribed := by
          rw [<- same]
          rfl
        unfold workerOutcome
        by_cases described : name.bytes.all isDescribed = true
        · rw [if_pos described, if_pos (clean.trans described), <- same]
          rfl
        · rw [if_neg described, if_neg (clean ▸ described)]
          rfl
  rw [outcome] at reads
  rw [describeWorker_eq]
  exact reads.spaced (by decide)

theorem worker_workerJson (worker : Worker) :
    Decoded.worker (workerJson worker) = some worker.view := by
  have name : Decoded.bytes (worker.name.elim .null fun name => .string name.bytes) =
      some worker.view.name := by
    cases found : worker.name <;> simp [Decoded.bytes, Worker.view, found]
  have id : Decoded.natural (idJson worker) = some worker.view.workerId := by
    unfold idJson Worker.view
    cases worker.isWorkerIdReady <;> rfl
  change (do
    let name <- Decoded.bytes (worker.name.elim .null fun name => .string name.bytes)
    let isRunning <- some worker.isRunning
    let isStarted <- some worker.isStarted
    let isJoined <- some worker.isJoined
    let isWorkerIdReady <- some worker.isWorkerIdReady
    let workerId <- Decoded.natural (idJson worker)
    let eventFd <- some worker.eventFd
    some (WorkerView.mk name isRunning isStarted isJoined isWorkerIdReady workerId eventFd)) = _
  rw [name, id]
  rfl

/-! ## The array -/

theorem begins_worker (worker : Worker) :
    Json.Begins (Json.skipSpace (describeWorker worker)) := by
  rw [describeWorker_eq, Json.skipSpace_append (by decide)]
  exact ⟨123, membersText (workerMembers worker), Json.skipSpace_cons 123 (by decide) _, by decide⟩

/-- The commas stand between the workers that are described. -/
theorem describeWorkers_eq (asked : Option CString) (closing : List Byte) (workers : List Worker) :
    describeWorkers asked false workers ++ closing =
        elementsText closing ((workers.filter (Worker.chosen asked)).map describeWorker) ∧
      describeWorkers asked true workers ++ closing =
        if workers.filter (Worker.chosen asked) = [] then closing
        else 44 :: elementsText closing
          ((workers.filter (Worker.chosen asked)).map describeWorker) := by
  induction workers with
  | nil => exact ⟨rfl, rfl⟩
  | cons worker workers inductionHypothesis =>
      unfold describeWorkers
      cases chosen : worker.chosen asked with
      | false =>
          simp only [List.filter_cons, chosen, Bool.false_eq_true, if_false]
          exact inductionHypothesis
      | true =>
          simp only [List.filter_cons, chosen, if_true, Bool.false_eq_true, if_false,
            List.nil_append, List.append_assoc, inductionHypothesis.2]
          cases workers.filter (Worker.chosen asked) with
          | nil => exact ⟨rfl, rfl⟩
          | cons next others => exact ⟨rfl, rfl⟩

theorem mapM_outcome (workers : List Worker) : workers.mapM workerOutcome =
    if workers.all Worker.clean then some (workers.map workerJson) else none := by
  induction workers with
  | nil => rfl
  | cons worker workers inductionHypothesis =>
      rw [List.mapM_cons, inductionHypothesis, List.all_cons, workerOutcome]
      cases worker.clean with
      | false => rfl
      | true => cases workers.all Worker.clean <;> rfl

theorem mapM_worker (workers : List Worker) :
    (workers.map workerJson).mapM Decoded.worker = some (workers.map Worker.view) := by
  induction workers with
  | nil => rfl
  | cons worker workers inductionHypothesis =>
      rw [List.map_cons, List.mapM_cons, worker_workerJson, inductionHypothesis]
      rfl

theorem reads_workers (pool : SchedulerPool) (asked : Option CString) :
    Reads (91 :: (describeWorkers asked false pool.workers ++ ascii "\n]"))
      (((pool.workers.filter (Worker.chosen asked)).mapM workerOutcome).map .array) := by
  rw [(describeWorkers_eq asked (ascii "\n]") pool.workers).1]
  exact Json.reads_array (show (ascii "\n").all Json.isSpace = true by decide) _
    (fun worker _ => reads_worker worker) fun worker _ => begins_worker worker

/-! ## The document -/

def poolMembers (pool : SchedulerPool) (asked : Option CString) : List Member :=
  [⟨ascii "worker_pool_sz", _, _, by decide, Json.reads_integer pool.workers.length⟩,
    ⟨ascii "round_robin_next", _, _, by decide, Json.reads_decimal pool.next⟩,
    ⟨ascii "pool_is_running", _, _, by decide, Json.reads_boolean pool.isRunning⟩,
    ⟨ascii "workers", _, _, by decide, reads_workers pool asked⟩]

theorem describeScheduler_eq (pool : SchedulerPool) (asked : Option CString) :
    describeScheduler (some pool) asked =
      objectText (poolMembers pool asked) ++ ascii "\n" := by
  have text : objectText (poolMembers pool asked) ++ ascii "\n" =
      ascii "\x7b\"worker_pool_sz\":" ++ (integer pool.workers.length ++
        (ascii ",\"round_robin_next\":" ++ (decimal pool.next ++
        (ascii ",\"pool_is_running\":" ++ (booleanText pool.isRunning ++
        (ascii ",\"workers\":[" ++ ((describeWorkers asked false pool.workers ++ ascii "\n]") ++
          ascii "\x7d\n"))))))) := by
    simp only [objectText, poolMembers, membersText, List.append_assoc, List.cons_append]
    rfl
  rw [text]
  simp only [describeScheduler, List.append_assoc]
  rfl

theorem decode_describe (pool : SchedulerPool) (asked : Option CString) :
    Json.decode (describeScheduler (some pool) asked) =
      if (pool.workers.filter (Worker.chosen asked)).all Worker.clean then
        some (.object
          [(ascii "worker_pool_sz", .number pool.workers.length 0),
            (ascii "round_robin_next", .number pool.next 0),
            (ascii "pool_is_running", .boolean pool.isRunning),
            (ascii "workers", .array
              ((pool.workers.filter (Worker.chosen asked)).map workerJson))])
      else none := by
  have reads := Json.reads_object (poolMembers pool asked) (List.cons_ne_nil _ _)
  rw [describeScheduler_eq, reads.decode (by decide)]
  simp only [poolMembers, List.mapM_cons, List.mapM_nil, Member.read, mapM_outcome]
  by_cases clean : (pool.workers.filter (Worker.chosen asked)).all Worker.clean = true
  · rw [if_pos clean, if_pos clean]
    rfl
  · rw [if_neg clean, if_neg clean]
    rfl

/-- NULL is described like a pool without workers. -/
theorem describes_none (asked : Option CString) :
    Describes (describeScheduler none asked) (matching none asked) := by
  have workers : Reads (91 :: elementsText [93] []) (some (.array [])) :=
    Json.reads_array (show [].all Json.isSpace = true from rfl) ([] : List Worker)
      (fun worker _ => reads_worker worker) fun worker _ => begins_worker worker
  have reads := Json.reads_object
    [⟨ascii "worker_pool_sz", _, _, by decide, Json.reads_integer 0⟩,
      ⟨ascii "workers", _, _, by decide, workers⟩] (List.cons_ne_nil _ _)
  exact ⟨_, reads.decode (show (ascii "\n").all Json.isSpace = true by decide), rfl⟩

/-- The text describes the matching workers if and only if their names have no control
characters other than newline and tab. -/
theorem describesMatching (pool : Option SchedulerPool) (asked : Option CString) :
    Describes (describeScheduler pool asked) (matching pool asked) ↔
      forall worker, worker ∈ matching pool asked -> worker.clean = true := by
  cases pool with
  | none =>
      have decoded := describes_none asked
      exact iff_of_true decoded (by simp [matching])
  | some pool =>
      simp only [Describes, matching, decode_describe]
      rw [<- List.all_eq_true]
      cases (pool.workers.filter (Worker.chosen asked)).all Worker.clean with
      | false => simp
      | true =>
          simp only [if_true, iff_true]
          exact ⟨_, rfl, mapM_worker _⟩

/-- A pool whose prefix is a carriage return. -/
def returnPool : SchedulerPool :=
  ⟨[schedulerCreate (workerName (some ⟨[13], by decide⟩) 0) 5], 0, false⟩

theorem describesMatching_fails : ¬forall pool asked,
    Describes (describeScheduler pool asked) (matching pool asked) := by
  intro always
  rcases always (some returnPool) none with ⟨document, decoded, _⟩
  have unclean : ¬(returnPool.workers.filter (Worker.chosen none)).all Worker.clean = true := by
    decide
  rw [decode_describe, if_neg unclean] at decoded
  cases decoded

end Pool
end UfsrvRx
