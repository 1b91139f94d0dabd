import ChainCoverage.Proofs.Assignment.Exchange

/-!
# What clients hear of their requests

Each request is waited for by its own client until that client has heard of it, once.  So
every command that is taken before a shutdown gets one reply, and the reply gets to the client
that sent the request.

Main definitions:

- `Exchange.Attributed`: each channel belongs to the client that sent its request.
- `Exchange.Orderly`: everything that clients and the launcher can rely on.

Main results:

- `Exchange.attributed_run`: every sequence of events leaves the channels with their clients.
- `Exchange.orderly_run`: what holds after every sequence of events.
-/

namespace ChainCoverage

/-- With distinct keys, a member is the only one with its key. -/
theorem filter_key_eq_singleton {α β : Type} [DecidableEq β] {key : α → β} {values : List α}
    (hnodup : (values.map key).Nodup) {value : α} (hmem : value ∈ values) :
    values.filter (key · == key value) = [value] := by
  induction values with
  | nil => cases hmem
  | cons first rest ih =>
    rw [List.map_cons, List.nodup_cons] at hnodup
    obtain ⟨hfirst, hrest⟩ := hnodup
    rw [List.filter_cons]
    rcases List.mem_cons.1 hmem with rfl | hmem
    · have hother : rest.filter (key · == key value) = [] := by
        rw [List.filter_eq_nil_iff]
        intro other hother heq
        exact hfirst (List.mem_map.2 ⟨other, hother, beq_iff_eq.1 heq⟩)
      rw [if_pos (beq_self_eq_true _), hother]
    · have hne : ¬ (key first == key value) = true := fun heq =>
        hfirst (List.mem_map.2 ⟨value, hmem, (beq_iff_eq.1 heq).symm⟩)
      rw [if_neg hne, ih hrest hmem]

namespace Exchange

variable {ι : Type}

/-! ## Channels and their clients -/

/-- Each channel belongs to the client that sent its request, who waits on it until it is told
once how the request ended. -/
structure Attributed (e : Exchange ι) : Prop where
  waiting_sent : ∀ client channel, e.waiting client = some channel →
    ∃ request, e.sent[channel]? = some (client, request)
  waiting_undelivered : ∀ client channel, e.waiting client = some channel →
    ∀ delivery ∈ e.delivered, delivery.channel ≠ channel
  sent_cases : ∀ (channel : Nat) client request, e.sent[channel]? = some (client, request) →
    e.waiting client = some channel ∨ ∃ delivery ∈ e.delivered, delivery.channel = channel
  delivered_sent : ∀ delivery ∈ e.delivered,
    ∃ request, e.sent[delivery.channel]? = some (delivery.client, request)
  delivered_heard : ∀ delivery ∈ e.delivered, e.Hears delivery.channel delivery.answer
  delivered_once : (e.delivered.map Delivery.channel).Nodup

theorem attributed_start : (start : Exchange ι).Attributed where
  waiting_sent _ _ h := nomatch h
  waiting_undelivered _ _ h := nomatch h
  sent_cases _ _ _ h := nomatch h
  delivered_sent _ h := nomatch h
  delivered_heard _ h := nomatch h
  delivered_once := List.nodup_nil

variable [DecidableEq ι]

namespace Attributed

variable {e : Exchange ι} (h : e.Attributed)
include h

/-- A new channel belongs to the client that queues a command on it. -/
theorem enqueue {client : ι} (hidle : e.waiting client = none) (request : Assignment) :
    (e.enqueue client request).Attributed := by
  have hold : ∀ {channel : Nat} {sent : ι × Assignment}, e.sent[channel]? = some sent →
      (e.sent ++ [(client, request)])[channel]? = some sent ∧ channel < e.sent.length := by
    intro channel sent hsent
    have hlt : channel < e.sent.length := (List.getElem?_eq_some_iff.1 hsent).1
    exact ⟨(List.getElem?_append_left hlt).trans hsent, hlt⟩
  have hnew : (e.sent ++ [(client, request)])[e.sent.length]? = some (client, request) :=
    List.getElem?_concat_length
  constructor
  case waiting_sent =>
    intro other channel hwaiting
    by_cases hother : other = client
    · subst hother
      obtain rfl : e.sent.length = channel := by
        simpa using hwaiting
      exact ⟨request, hnew⟩
    · rw [e.waiting_enqueue_of_ne hother] at hwaiting
      obtain ⟨asked, hsent⟩ := h.waiting_sent other channel hwaiting
      exact ⟨asked, (hold hsent).1⟩
  case waiting_undelivered =>
    intro other channel hwaiting delivery hdelivery
    by_cases hother : other = client
    · subst hother
      obtain rfl : e.sent.length = channel := by
        simpa using hwaiting
      obtain ⟨asked, hsent⟩ := h.delivered_sent delivery hdelivery
      exact Nat.ne_of_lt (hold hsent).2
    · rw [e.waiting_enqueue_of_ne hother] at hwaiting
      exact h.waiting_undelivered other channel hwaiting delivery hdelivery
  case sent_cases =>
    intro channel other asked hsent
    rcases Nat.lt_or_ge channel e.sent.length with hlt | hge
    · have hbefore : e.sent[channel]? = some (other, asked) :=
        (List.getElem?_append_left hlt).symm.trans hsent
      refine (h.sent_cases channel other asked hbefore).imp_left fun hwaiting => ?_
      have hother : other ≠ client := by
        rintro rfl
        rw [hidle] at hwaiting
        cases hwaiting
      rw [e.waiting_enqueue_of_ne hother, hwaiting]
    · have hlt : channel < (e.sent ++ [(client, request)]).length :=
        (List.getElem?_eq_some_iff.1 hsent).1
      rw [List.length_append, List.length_singleton] at hlt
      obtain rfl : channel = e.sent.length := by omega
      obtain ⟨rfl, rfl⟩ := Prod.mk.inj (Option.some.inj (hnew.symm.trans hsent))
      exact Or.inl e.waiting_enqueue_self
  case delivered_sent =>
    intro delivery hdelivery
    obtain ⟨asked, hsent⟩ := h.delivered_sent delivery hdelivery
    exact ⟨asked, (hold hsent).1⟩
  case delivered_heard => exact h.delivered_heard
  case delivered_once => exact h.delivered_once

/-- A client that hears of its request waits no more. -/
theorem deliver {client : ι} {channel : Nat} {answer : Except LaunchError TaskName}
    (hwaiting : e.waiting client = some channel) (hhears : e.Hears channel answer) :
    (e.deliver client channel answer).Attributed := by
  obtain ⟨request, hchannel⟩ := h.waiting_sent client channel hwaiting
  constructor
  case waiting_sent =>
    intro other channel' hother
    by_cases hsame : other = client
    · simp [hsame] at hother
    · rw [e.waiting_deliver_of_ne hsame] at hother
      exact h.waiting_sent other channel' hother
  case waiting_undelivered =>
    intro other channel' hother delivery hdelivery
    by_cases hsame : other = client
    · simp [hsame] at hother
    · rw [e.waiting_deliver_of_ne hsame] at hother
      rcases List.mem_append.1 hdelivery with hbefore | hnow
      · exact h.waiting_undelivered other channel' hother delivery hbefore
      · obtain rfl := List.mem_singleton.1 hnow
        rintro rfl
        -- One channel belongs to one client.
        obtain ⟨asked, hsent⟩ := h.waiting_sent other _ hother
        exact hsame (Prod.mk.inj (Option.some.inj (hsent.symm.trans hchannel))).1
  case sent_cases =>
    intro channel' other asked hsent
    rcases h.sent_cases channel' other asked hsent with hother | ⟨delivery, hdelivery, heq⟩
    · by_cases hsame : other = client
      · subst hsame
        obtain rfl := Option.some.inj (hwaiting.symm.trans hother)
        exact Or.inr ⟨_, List.mem_append_right _ (List.mem_singleton_self _), rfl⟩
      · refine Or.inl ?_
        rw [e.waiting_deliver_of_ne hsame, hother]
    · exact Or.inr ⟨delivery, List.mem_append_left _ hdelivery, heq⟩
  case delivered_sent =>
    intro delivery hdelivery
    rcases List.mem_append.1 hdelivery with hbefore | hnow
    · exact h.delivered_sent delivery hbefore
    · obtain rfl := List.mem_singleton.1 hnow
      exact ⟨request, hchannel⟩
  case delivered_heard =>
    intro delivery hdelivery
    rcases List.mem_append.1 hdelivery with hbefore | hnow
    · exact h.delivered_heard delivery hbefore
    · obtain rfl := List.mem_singleton.1 hnow
      exact hhears
  case delivered_once =>
    rw [Exchange.deliver, List.map_append, List.map_singleton, List.nodup_append]
    refine ⟨h.delivered_once, by simp, ?_⟩
    intro old hold new hnew
    obtain ⟨delivery, hdelivery, rfl⟩ := List.mem_map.1 hold
    obtain rfl := List.mem_singleton.1 hnew
    exact h.waiting_undelivered client _ hwaiting delivery hdelivery

omit [DecidableEq ι] in
/-- What the launcher does leaves the channels alone, as long as clients have heard nothing that
becomes wrong. -/
theorem of_launcher {e' : Exchange ι} (hsent : e'.sent = e.sent) (hwaiting : e'.waiting = e.waiting)
    (hdelivered : e'.delivered = e.delivered)
    (hhears : ∀ channel answer, e.Hears channel answer → e'.Hears channel answer) :
    e'.Attributed where
  waiting_sent := by rw [hsent, hwaiting]; exact h.waiting_sent
  waiting_undelivered := by rw [hwaiting, hdelivered]; exact h.waiting_undelivered
  sent_cases := by rw [hsent, hwaiting, hdelivered]; exact h.sent_cases
  delivered_sent := by rw [hsent, hdelivered]; exact h.delivered_sent
  delivered_heard := by
    rw [hdelivered]
    exact fun delivery hdelivery => hhears _ _ (h.delivered_heard delivery hdelivery)
  delivered_once := by rw [hdelivered]; exact h.delivered_once

/-- The channels stay with their clients in every event. -/
theorem becomes {e' : Exchange ι} (hbecomes : e.Becomes e') : e'.Attributed := by
  cases hbecomes with
  | same => exact h
  | enqueued hidle => exact h.enqueue hidle _
  | shutdownQueued => exact h.of_launcher rfl rfl rfl fun _ _ hhears => hhears
  | launched htaking =>
    refine h.of_launcher rfl rfl rfl fun channel answer hhears => ?_
    rcases hhears with hreply | ⟨_, hstopped, _⟩
    · exact Or.inl (List.mem_append_left _ hreply)
    · exact absurd htaking hstopped
  | stopped htaking =>
    refine h.of_launcher rfl rfl rfl fun channel answer hhears => ?_
    exact hhears.imp_right fun hdropped => ⟨hdropped.1, by simp, hdropped.2.2⟩
  | left =>
    refine h.of_launcher rfl rfl rfl fun channel answer hhears => ?_
    exact hhears.imp_right fun hdropped => ⟨hdropped.1, by simp, hdropped.2.2⟩
  | delivered hwaiting hhears => exact h.deliver hwaiting hhears

end Attributed

/-- The channels stay with their clients in every sequence of events. -/
theorem attributed_run (events : List (ExchangeEvent ι)) :
    (start.run events : Exchange ι).Attributed :=
  run_of_becomes (fun hbecomes h => h.becomes hbecomes) attributed_start events

/-! ## Replies -/

namespace InQueueOrder

omit [DecidableEq ι]

variable {e : Exchange ι} (h : e.InQueueOrder)
include h

/-- A shutdown is taken last. -/
theorem rest_eq_nil {front rest : List (QueueEntry Nat)}
    (htaken : e.taken = front ++ .shutdown :: rest) : rest = [] := by
  rcases h.shutdown_last with hrunning | ⟨_, before, hrunning, hbefore⟩
  · exact absurd (htaken ▸ List.mem_append_right _ List.mem_cons_self) hrunning
  · rw [hbefore] at htaken
    rcases List.append_eq_append_iff.1 htaken with ⟨between, _, hlast⟩ | ⟨between, heq, hlast⟩
    · have hlength := congrArg List.length hlast
      simp only [List.length_append, List.length_cons, List.length_nil] at hlength
      exact List.length_eq_zero_iff.1 (by omega)
    · cases between with
      | nil => exact (List.cons.inj hlast).2
      | cons entry between =>
        -- Then the first shutdown stands in front of another one.
        obtain ⟨rfl, _⟩ := List.cons.inj hlast
        exact absurd (heq ▸ List.mem_append_right _ List.mem_cons_self) hrunning

/-- A command is taken in the place of its channel. -/
theorem taken_channel {place channel : Nat} {request : Assignment}
    (htaken : (QueueEntry.launches e.taken)[place]? = some (channel, request)) :
    place = channel ∧ ∃ client, e.sent[channel]? = some (client, request) := by
  have hlt : place < (QueueEntry.launches e.taken).length :=
    (List.getElem?_eq_some_iff.1 htaken).1
  have hplace : (QueueEntry.launches (e.taken ++ e.queue))[place]? =
      e.sent[place]?.map fun sent => (place, sent.2) := by
    rw [h.queued, List.getElem?_mapIdx]
  rw [QueueEntry.launches_append, List.getElem?_append_left hlt, htaken] at hplace
  obtain ⟨⟨client, asked⟩, hsent, heq⟩ := Option.map_eq_some_iff.1 hplace.symm
  obtain ⟨rfl, rfl⟩ := Prod.mk.inj heq
  exact ⟨rfl, client, hsent⟩

/-- No two commands have one channel. -/
theorem nodup_channels : ((QueueEntry.launches e.taken).map Prod.fst).Nodup := by
  have hall : (QueueEntry.launches (e.taken ++ e.queue)).map Prod.fst =
      List.range e.sent.length := by
    rw [h.queued]
    exact List.ext_getElem (by simp) (by simp)
  rw [QueueEntry.launches_append, List.map_append] at hall
  have hprefix : (QueueEntry.launches e.taken).map Prod.fst <+: List.range e.sent.length :=
    hall ▸ List.prefix_append ..
  exact List.nodup_range.sublist hprefix.sublist

/-- The requests in front of a command that was taken are those that were sent before it. -/
theorem map_snd_take {channel : Nat} (hle : channel ≤ (QueueEntry.launches e.taken).length) :
    ((QueueEntry.launches e.taken).take channel).map Prod.snd =
      (e.sent.take channel).map Prod.snd := by
  have hall : (QueueEntry.launches (e.taken ++ e.queue)).map Prod.snd = e.sent.map Prod.snd := by
    rw [h.queued]
    exact List.ext_getElem (by simp) (by simp)
  rw [List.map_take, List.map_take, ← hall, QueueEntry.launches_append, List.map_append,
    List.take_append_of_le_length (by rwa [List.length_map])]

/-- A command that is taken has one reply, which answers its request behind those sent before. -/
theorem filter_replies_of_taken {channel : Nat} {request : Assignment}
    (htaken : .launch channel request ∈ e.taken) :
    e.replies.filter (·.client == channel) =
      [⟨channel, Launcher.answerBehind ((e.sent.take channel).map Prod.snd) request⟩] := by
  obtain ⟨place, hplace⟩ := List.getElem?_of_mem (QueueEntry.mem_launches.2 htaken)
  obtain ⟨rfl, _⟩ := h.taken_channel hplace
  have hlt : place < (QueueEntry.launches e.taken).length :=
    (List.getElem?_eq_some_iff.1 hplace).1
  have hreply : ⟨place, Launcher.answerBehind ((e.sent.take place).map Prod.snd) request⟩ ∈
      e.replies := by
    apply List.mem_of_getElem? (i := place)
    rw [h.replies_eq, Launcher.getElem?_repliesBehind, hplace, List.nil_append,
      h.map_snd_take (Nat.le_of_lt hlt)]
    rfl
  have hnodup : (e.replies.map QueueReply.client).Nodup := by
    rw [h.replies_eq, Launcher.map_client_repliesBehind]
    exact h.nodup_channels
  exact filter_key_eq_singleton hnodup hreply

/-- A reply is to a command that was taken. -/
theorem exists_taken_of_mem_replies {reply : QueueReply Nat} (hreply : reply ∈ e.replies) :
    ∃ request, .launch reply.client request ∈ e.taken := by
  have hclient : reply.client ∈ (QueueEntry.launches e.taken).map Prod.fst := by
    rw [← Launcher.map_client_repliesBehind [], ← h.replies_eq]
    exact List.mem_map_of_mem hreply
  obtain ⟨⟨channel, request⟩, hcommand, rfl⟩ := List.mem_map.1 hclient
  exact ⟨request, QueueEntry.mem_launches.1 hcommand⟩

/-- The ids are those of the supported requests that were taken, numbered in order. -/
theorem idsOf_replies :
    Launcher.idsOf e.replies =
      (((QueueEntry.launches e.taken).map Prod.snd).filter Assignment.isSupported).mapIdx
        fun index request => taskName request (.ofNat (index + 1)) := by
  rw [h.replies_eq, Launcher.idsOf_repliesBehind]
  simp

/-- The launcher has counted the ids. -/
theorem launches_launcher :
    e.launcher.launches = .ofNat (Launcher.idsOf e.replies).length := by
  rw [h.launcher_eq, h.idsOf_replies, List.length_mapIdx, ← List.countP_eq_length_filter]
  rfl

end InQueueOrder

/-! ## What clients and the launcher can rely on -/

/-- A client has got the one reply on its channel once, or it can still get it. -/
structure Replied (e : Exchange ι) (client : ι) (channel : Nat)
    (answer : Except LaunchError TaskName) : Prop where
  reply : e.replies.filter (·.client == channel) = [⟨channel, answer⟩]
  /-- Nobody else has heard anything on its channel. -/
  delivery : e.delivered.filter (·.channel == channel) = [⟨client, channel, answer⟩] ∨
    e.delivered.filter (·.channel == channel) = [] ∧ e.waiting client = some channel ∧
      (e.step (.collect client)).delivered = e.delivered ++ [⟨client, channel, answer⟩] ∧
      (e.step (.collect client)).waiting client = none ∧
      ∀ other, other ≠ client → (e.step (.collect client)).waiting other = e.waiting other

/-- What clients and the launcher can rely on. -/
structure Orderly (e : Exchange ι) : Prop where
  /-- The launch commands were taken and are queued in the order in which their requests were
  sent. -/
  queued : QueueEntry.launches (e.taken ++ e.queue) =
    e.sent.mapIdx fun channel sent => (channel, sent.2)
  /-- The launcher has done what it does with the commands in its queue. -/
  drained : Launcher.idle.drain e.taken = (e.replies, e.launcher, [])
  /-- Nothing is taken behind a shutdown. -/
  shutdown_last : ∀ front rest, e.taken = front ++ .shutdown :: rest → rest = []
  /-- A command that is taken gets one reply, which its own client gets. -/
  replied : ∀ (channel : Nat) (request : Assignment), .launch channel request ∈ e.taken →
    ∃ client, e.sent[channel]? = some (client, request) ∧
      e.Replied client channel
        (Launcher.answerBehind ((e.sent.take channel).map Prod.snd) request)
  /-- Any other command gets none, and its client hears at most that it was dropped. -/
  unreplied : ∀ channel : Nat, (∀ request, .launch channel request ∉ e.taken) →
    e.replies.filter (·.client == channel) = [] ∧
      ∀ delivery ∈ e.delivered, delivery.channel = channel → delivery.answer = .error .dropped
  /-- The launcher counts the ids that it hands out. -/
  counted : e.launcher.launches = .ofNat (Launcher.idsOf e.replies).length
  /-- The ids are numbered in the order of the queue. -/
  numbered : Launcher.idsOf e.replies =
    (((QueueEntry.launches e.taken).map Prod.snd).filter Assignment.isSupported).mapIdx
      fun index request => taskName request (.ofNat (index + 1))
  /-- No id is handed out twice, as long as their number fits a word. -/
  distinct : (Launcher.idsOf e.replies).length < UInt64.size → (Launcher.idsOf e.replies).Nodup

/-- The reply to a command that was taken gets to the client that sent its request. -/
theorem Attributed.replied {e : Exchange ι} (h : e.Attributed) {client : ι} {channel : Nat}
    {request : Assignment} (hsent : e.sent[channel]? = some (client, request))
    {answer : Except LaunchError TaskName}
    (hreply : e.replies.filter (·.client == channel) = [⟨channel, answer⟩]) :
    e.Replied client channel answer := by
  refine ⟨hreply, ?_⟩
  rcases h.sent_cases channel client request hsent with hwaiting | ⟨delivery, hdelivery, rfl⟩
  · have hcollect : e.step (.collect client) = e.deliver client channel answer := by
      rw [step, collect, hwaiting]
      dsimp only
      rw [← List.head?_filter, hreply]
      rfl
    rw [hcollect]
    refine Or.inr ⟨?_, hwaiting, rfl, e.waiting_deliver_self, fun _ => e.waiting_deliver_of_ne⟩
    rw [List.filter_eq_nil_iff]
    intro delivery hdelivery heq
    exact h.waiting_undelivered client channel hwaiting delivery hdelivery (beq_iff_eq.1 heq)
  · have hanswer : delivery.answer = answer := by
      rcases h.delivered_heard delivery hdelivery with hheard | ⟨_, _, hnone⟩
      · have hmem : ⟨delivery.channel, delivery.answer⟩ ∈
            e.replies.filter (·.client == delivery.channel) :=
          List.mem_filter.2 ⟨hheard, beq_self_eq_true _⟩
        rw [hreply, List.mem_singleton] at hmem
        exact (QueueReply.mk.inj hmem).2
      · have hmem : ⟨delivery.channel, answer⟩ ∈
            e.replies.filter (·.client == delivery.channel) := by
          rw [hreply, List.mem_singleton]
        exact absurd rfl (hnone _ (List.mem_filter.1 hmem).1)
    have hclient : delivery.client = client := by
      obtain ⟨asked, hasked⟩ := h.delivered_sent delivery hdelivery
      exact (Prod.mk.inj (Option.some.inj (hasked.symm.trans hsent))).1
    subst hanswer hclient
    exact Or.inl (filter_key_eq_singleton h.delivered_once hdelivery)

/-- The queue order and the attribution of channels make an exchange orderly. -/
theorem InQueueOrder.orderly {e : Exchange ι} (h : e.InQueueOrder) (hclients : e.Attributed) :
    e.Orderly where
  queued := h.queued
  drained := h.drain_taken
  shutdown_last := fun _ _ => h.rest_eq_nil
  replied := by
    intro channel request htaken
    obtain ⟨place, hplace⟩ := List.getElem?_of_mem (QueueEntry.mem_launches.2 htaken)
    obtain ⟨rfl, client, hsent⟩ := h.taken_channel hplace
    exact ⟨client, hsent, hclients.replied hsent (h.filter_replies_of_taken htaken)⟩
  unreplied := by
    intro channel huntaken
    have hnone : ∀ reply ∈ e.replies, reply.client ≠ channel := by
      rintro reply hreply rfl
      obtain ⟨request, htaken⟩ := h.exists_taken_of_mem_replies hreply
      exact huntaken request htaken
    constructor
    · rw [List.filter_eq_nil_iff]
      exact fun reply hreply heq => hnone reply hreply (beq_iff_eq.1 heq)
    · rintro delivery hdelivery rfl
      rcases hclients.delivered_heard delivery hdelivery with hheard | ⟨hdropped, _⟩
      · exact absurd rfl (hnone _ hheard)
      · exact hdropped
  counted := h.launches_launcher
  numbered := h.idsOf_replies
  distinct := by
    rw [h.idsOf_replies, List.length_mapIdx]
    exact Launcher.nodup_mapIdx_taskName

/-- Whatever clients and a launcher do, they leave everything in order; nothing happens behind a
shutdown; and an id stands for one launch. -/
theorem orderly_run (events : List (ExchangeEvent ι)) :
    (start.run events : Exchange ι).Orderly ∧
      (.shutdown ∈ (start.run events : Exchange ι).taken → ∀ more : List (ExchangeEvent ι),
        (start.run events).Untouched (start.run (events ++ more))) ∧
      ∀ (request other : Assignment) (number otherNumber : UInt64),
        taskName request number = taskName other otherNumber →
          request.network = other.network ∧ request.task.span = other.task.span ∧
            number = otherNumber := by
  have hqueue := inQueueOrder_run (ι := ι) events
  refine ⟨hqueue.orderly (attributed_run events), ?_, fun _ _ _ _ => taskName_inj⟩
  intro hshutdown more
  have hstopped : (start.run events : Exchange ι).attention ≠ .taking :=
    fun htaking => hqueue.shutdown_notMem_taken htaking hshutdown
  rw [run_append]
  exact untouched_run hstopped more

/-- Two clients, of which one asks for a log level that is not supported and one is too late. -/
theorem orderly_run_two_clients :
    let early : Assignment := ⟨"main-1", ⟨⟨0, 3⟩, ⟨false, "info"⟩⟩⟩
    let loud : Assignment := ⟨"main", ⟨⟨1, 2⟩, ⟨false, "loud"⟩⟩⟩
    let again : Assignment := ⟨"main", ⟨⟨10, 11⟩, ⟨true, "5"⟩⟩⟩
    let events : List (ExchangeEvent Bool) := [.send true loud, .send false early, .take, .take,
      .collect true, .send true again, .shut, .collect false, .send false early, .take, .take,
      .collect true]
    let e : Exchange Bool := start.run events
    Launcher.idsOf e.replies = ["main-1-0-3-1", "main-10-11-2"] ∧ .shutdown ∈ e.taken ∧
      (Launcher.idsOf e.replies).Nodup ∧
      e.delivered.filter (·.channel == 1) = [⟨false, 1, .ok "main-1-0-3-1"⟩] ∧
      e.waiting false = some 3 ∧
      ((start.run (events ++ [.take, .leave, .abandon false]) : Exchange Bool)).launcher =
        e.launcher := by
  intro early loud again events e
  have hids : Launcher.idsOf e.replies = ["main-1-0-3-1", "main-10-11-2"] := by decide +kernel
  have hshutdown : .shutdown ∈ e.taken := by decide +kernel
  obtain ⟨horderly, huntouched, _⟩ : e.Orderly ∧ _ ∧ _ := orderly_run events
  have hfew : (Launcher.idsOf e.replies).length < UInt64.size := by
    rw [hids]
    decide
  have hwaiting : e.waiting false = some 3 := by decide +kernel
  have htaken : .launch 1 early ∈ e.taken := by decide +kernel
  obtain ⟨client, hsent, hreplied⟩ := horderly.replied 1 early htaken
  obtain rfl : client = false := by
    have hearly : e.sent[1]? = some (false, early) := by decide +kernel
    exact (Prod.mk.inj (Option.some.inj (hsent.symm.trans hearly))).1
  have hanswer : Launcher.answerBehind ((e.sent.take 1).map Prod.snd) early =
      .ok "main-1-0-3-1" := by decide +kernel
  have hchannels : (some 3 : Option Nat) ≠ some 1 := by decide
  have hdelivered : e.delivered.filter (·.channel == 1) = [⟨false, 1, .ok "main-1-0-3-1"⟩] := by
    rw [← hanswer]
    exact hreplied.delivery.resolve_right fun hstill => hchannels (hwaiting.symm.trans hstill.2.1)
  exact ⟨hids, hshutdown, horderly.distinct hfew, hdelivered, hwaiting,
    (huntouched hshutdown _).launcher⟩

end Exchange
end ChainCoverage
