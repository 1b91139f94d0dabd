import ChainCoverage.Proofs.Assignment.TaskName

/-!
# The answers of a launcher

What a launcher answers to a request depends on the requests in front of it: those with a
supported log level are numbered in the order in which they are taken, and the others use up
no number.

Main definitions:

- `Launcher.behind` and `Launcher.answerBehind`: a launcher behind some requests, and its
  answer to the next one.
- `Launcher.repliesBehind`: its replies to launch commands.

Main results:

- `Launcher.launch_behind`: one launch.
- `Launcher.drain_behind`: the replies to a queue of commands.
- `Launcher.idsOf_repliesBehind`: the ids that are handed out, and their numbers.
-/

namespace ChainCoverage

/-- Whether a launcher knows the log level of a request. -/
def Assignment.isSupported (request : Assignment) : Bool :=
  (Level.parse? request.task.options.logLevel).isSome

namespace QueueEntry

variable {κ : Type}

/-- The client and the request of a launch command. -/
def launch? : QueueEntry κ → Option (κ × Assignment)
  | launch client request => some (client, request)
  | shutdown => none

@[simp]
theorem launch?_eq_some_iff {entry : QueueEntry κ} {client : κ} {request : Assignment} :
    entry.launch? = some (client, request) ↔ entry = launch client request := by
  cases entry <;> simp [launch?]

/-- The launch commands in a queue. -/
def launches (entries : List (QueueEntry κ)) : List (κ × Assignment) :=
  entries.filterMap launch?

@[simp]
theorem launches_append (entries rest : List (QueueEntry κ)) :
    launches (entries ++ rest) = launches entries ++ launches rest :=
  List.filterMap_append

theorem launches_concat_launch (entries : List (QueueEntry κ)) (client : κ)
    (request : Assignment) :
    launches (entries ++ [launch client request]) = launches entries ++ [(client, request)] :=
  launches_append ..

/-- A shutdown launches nothing. -/
theorem launches_concat_shutdown (entries : List (QueueEntry κ)) :
    launches (entries ++ [shutdown]) = launches entries :=
  (launches_append ..).trans (List.append_nil _)

@[simp]
theorem mem_launches {entries : List (QueueEntry κ)} {client : κ} {request : Assignment} :
    (client, request) ∈ launches entries ↔ launch client request ∈ entries := by
  simp [launches]

end QueueEntry

namespace Launcher

variable {κ : Type}

/-- A launcher behind some requests. -/
def behind (requests : List Assignment) : Launcher :=
  ⟨.ofNat (requests.countP Assignment.isSupported)⟩

/-- The answer to a request behind others. -/
def answerBehind (requests : List Assignment) (request : Assignment) :
    Except LaunchError TaskName :=
  if request.isSupported then
    .ok (taskName request (.ofNat (requests.countP Assignment.isSupported + 1)))
  else
    .error (.unsupportedLevel request.task.options.logLevel)

/-- The replies to launch commands behind some requests. -/
def repliesBehind (requests : List Assignment) : List (κ × Assignment) → List (QueueReply κ)
  | [] => []
  | (client, request) :: rest =>
    ⟨client, answerBehind requests request⟩ :: repliesBehind (requests ++ [request]) rest

@[simp]
theorem behind_nil : behind [] = idle :=
  rfl

/-- One launch numbers the request when its log level is supported. -/
theorem launch_behind (requests : List Assignment) (request : Assignment) :
    (behind requests).launch request =
      (answerBehind requests request, behind (requests ++ [request])) := by
  rw [launch, answerBehind, behind, behind, List.countP_append, List.countP_singleton,
    Assignment.isSupported]
  cases Level.parse? request.task.options.logLevel with
  | none => simp
  | some level => simp [UInt64.ofNat_add]

/-- Commands in front of a shutdown are answered, and then the rest is. -/
theorem drain_behind (requests : List Assignment) {entries : List (QueueEntry κ)}
    (hrunning : .shutdown ∉ entries) (rest : List (QueueEntry κ)) :
    (behind requests).drain (entries ++ rest) =
      let (replies, final, untaken) :=
        (behind (requests ++ (QueueEntry.launches entries).map Prod.snd)).drain rest
      (repliesBehind requests (QueueEntry.launches entries) ++ replies, final, untaken) := by
  induction entries generalizing requests with
  | nil => simp [QueueEntry.launches, repliesBehind]
  | cons entry entries ih =>
    rw [List.mem_cons, not_or] at hrunning
    cases entry with
    | shutdown => exact absurd rfl hrunning.1
    | launch client request =>
      have hlaunches : QueueEntry.launches (.launch client request :: entries) =
          (client, request) :: QueueEntry.launches entries := rfl
      rw [List.cons_append, drain, launch_behind, hlaunches, repliesBehind, List.map_cons]
      dsimp only
      rw [ih _ hrunning.2, List.append_assoc]
      rfl

theorem repliesBehind_append (requests : List Assignment) (commands rest : List (κ × Assignment)) :
    repliesBehind requests (commands ++ rest) =
      repliesBehind requests commands ++
        repliesBehind (requests ++ commands.map Prod.snd) rest := by
  induction commands generalizing requests with
  | nil => simp [repliesBehind]
  | cons command commands ih =>
    rw [List.cons_append, repliesBehind, ih, repliesBehind, List.map_cons, List.append_assoc]
    rfl

/-- Each command has a reply, to its client. -/
@[simp]
theorem map_client_repliesBehind (requests : List Assignment) (commands : List (κ × Assignment)) :
    (repliesBehind requests commands).map QueueReply.client = commands.map Prod.fst := by
  induction commands generalizing requests with
  | nil => rfl
  | cons command commands ih => rw [repliesBehind, List.map_cons, List.map_cons, ih]

/-- The reply to a command is the answer to its request behind those in front of it. -/
theorem getElem?_repliesBehind (requests : List Assignment) (commands : List (κ × Assignment))
    (index : Nat) :
    (repliesBehind requests commands)[index]? = commands[index]?.map fun command =>
      ⟨command.1, answerBehind (requests ++ (commands.take index).map Prod.snd) command.2⟩ := by
  induction commands generalizing requests index with
  | nil => rfl
  | cons command commands ih =>
    cases index with
    | zero => simp [repliesBehind]
    | succ index => simp [repliesBehind, ih]

/-! ## Ids -/

/-- The ids that are handed out in replies. -/
def idsOf (replies : List (QueueReply κ)) : List TaskName :=
  replies.filterMap (·.answer.toOption)

theorem idsOf_cons (reply : QueueReply κ) (replies : List (QueueReply κ)) :
    idsOf (reply :: replies) = reply.answer.toOption.toList ++ idsOf replies := by
  rw [idsOf, List.filterMap_cons]
  cases reply.answer.toOption <;> rfl

/-- Only a supported request gets an id. -/
theorem toOption_answerBehind (requests : List Assignment) (request : Assignment) :
    (answerBehind requests request).toOption =
      if request.isSupported then
        some (taskName request (.ofNat (requests.countP Assignment.isSupported + 1)))
      else none := by
  rw [answerBehind]
  split <;> rfl

/-- The ids are those of the supported requests, which are numbered in order. -/
theorem idsOf_repliesBehind (requests : List Assignment) (commands : List (κ × Assignment)) :
    idsOf (repliesBehind requests commands) =
      ((commands.map Prod.snd).filter Assignment.isSupported).mapIdx fun index request =>
        taskName request (.ofNat (requests.countP Assignment.isSupported + index + 1)) := by
  induction commands generalizing requests with
  | nil => rfl
  | cons command commands ih =>
    rw [repliesBehind, idsOf_cons, ih, toOption_answerBehind, List.map_cons, List.countP_append,
      List.countP_singleton]
    split
    · rename_i hsupported
      rw [List.filter_cons_of_pos hsupported, List.mapIdx_cons]
      simp only [Option.toList_some, List.singleton_append, Nat.add_zero, Nat.add_assoc,
        Nat.add_comm 1]
    · rename_i hunsupported
      rw [List.filter_cons_of_neg hunsupported]
      rfl

/-- Ids that are numbered in order are distinct as long as their numbers fit a word. -/
theorem nodup_mapIdx_taskName {requests : List Assignment} (hfits : requests.length < UInt64.size) :
    (requests.mapIdx fun index request => taskName request (.ofNat (index + 1))).Nodup := by
  rw [List.Nodup, List.pairwise_iff_getElem]
  intro low high hlow hhigh hlt heq
  rw [List.length_mapIdx] at hlow hhigh
  rw [List.getElem_mapIdx, List.getElem_mapIdx] at heq
  have hnumber := congrArg UInt64.toNat (taskName_inj heq).2.2
  rw [UInt64.toNat_ofNat_of_lt' (by omega), UInt64.toNat_ofNat_of_lt' (by omega)] at hnumber
  omega

end Launcher
end ChainCoverage
