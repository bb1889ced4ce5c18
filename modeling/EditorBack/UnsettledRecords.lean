import EditorBack.Cluster

/-!
# Records that are still owed

That no job is stranded rests on messages that come back.  With the topic in the
picture this is a matter of offsets: a record comes back when a consumer starts at
it or before it.

`Cluster.view` is the system as `World` knows it, its topic holding the records
that are still to be delivered: those whose last delivery was not handled to `Ok`
and that no call is at work on.  A step of the system with its topic is a step of
its view, or none, up to messages that come back although they were handled.  So
what keeps the jobs of the system covered keeps those of the system with its
topic covered (`kept_step`).

One thing is lost on the way.  A call whose partition was taken from its consumer may
fail, and its record may have been handled to `Ok` by the next consumer in the
meantime; then nothing brings the message back.  `FailsCovered` excludes this.
-/

namespace EditorBack

/-! ## Other topics -/

/-- A call that owes its message is over. -/
theorem Handler.jobId_of_owes {h : Handler} (howes : h.owesRedelivery = true) :
    h.phase.jobId = none := by
  unfold owesRedelivery at howes
  split at howes
  · next hp => rw [hp]; rfl
  · next hp => rw [hp]; rfl
  · next hp => rw [hp]; rfl
  · cases howes

namespace World

section Requeue

variable {s : World} {queue : List Payload}

theorem Provenance.requeue (hs : s.Provenance)
    (hsent : ∀ j, .message ⟨j⟩ ∈ queue → j ∈ s.sent) :
    ({ s with queue := queue } : World).Provenance where
  sound := ⟨hs.sound.handlers, hs.sound.submissions⟩
  stored := hs.stored
  inserted := hs.inserted
  sending := hs.sending
  answered := hs.answered
  queued := hsent
  handled := hs.handled
  touched := hs.touched
  outboxed := hs.outboxed
  pending := hs.pending

/-- The topic may hold any message of a job that was sent, as long as it keeps one for
each job that no call is at work on. -/
theorem Watched.requeue (hs : s.Watched)
    (hsent : ∀ j, .message ⟨j⟩ ∈ queue → j ∈ s.sent)
    (hkeep : ∀ j, .message ⟨j⟩ ∈ s.queue →
      .message ⟨j⟩ ∈ queue ∨ ∃ hd ∈ s.handlers, hd.phase.jobId = some j) :
    ({ s with queue := queue } : World).Watched where
  provenance := hs.provenance.requeue hsent
  started := hs.started
  marking := hs.marking
  published := hs.published
  covered := by
    intro j hj
    cases hs.covered j hj with
    | verdict hr hterm => exact .verdict hr hterm
    | queued hmem =>
        rcases hkeep j hmem with hkept | ⟨hd, hhd, hjob⟩
        · exact .queued hkept
        · exact .handled hhd hjob
    | handled hmem hjob => exact .handled hmem hjob
    | outboxed hmem hjob hnone hunsent => exact .outboxed hmem hjob hnone hunsent
    | beating hr hrunning hbeat => exact .beating hr hrunning hbeat

theorem Ordinary.requeue (hs : s.Ordinary) (hsent : ∀ j, .message ⟨j⟩ ∈ queue → j ∈ s.sent)
    (hmessages : ∀ payload ∈ queue, ∃ msg, payload = .message msg) :
    ({ s with queue := queue } : World).Ordinary where
  provenance := hs.provenance.requeue hsent
  rust := hs.rust
  queue := hmessages
  handlers := hs.handlers

end Requeue

section Steps

variable {s s' : World} {a : Action} {i : Nat}

/-- A step leaves a call where it is, with its message, and puts up with what it
owes. -/
theorem handler_goes_on (h : s.step a = some s') {hd : Handler}
    (hhd : s.handlers[i]? = some hd) :
    ∃ hd', s'.handlers[i]? = some hd' ∧ hd'.payload = hd.payload ∧
      (hd.owesRedelivery = true → hd'.owesRedelivery = true) := by
  have hlt : i < s'.handlers.length :=
    Nat.lt_of_lt_of_le (List.getElem?_eq_some_iff.mp hhd).1 (handlers_length_le h)
  refine ⟨s'.handlers[i], List.getElem?_eq_getElem hlt, ?_⟩
  rcases handler_at_step h (List.getElem?_eq_getElem hlt) with hsame | ⟨hnone, _⟩ | ⟨_, hd₀, hhd₀, hm⟩
  · rw [hhd] at hsame
    cases hsame
    exact ⟨rfl, id⟩
  · rw [hhd] at hnone
    cases hnone
  · rw [hhd] at hhd₀
    cases hhd₀
    refine ⟨hm.payload, ?_⟩
    intro howes
    rcases hm.jobId_or with ⟨_, hsame⟩ | ⟨hjob, _⟩
    · exact hsame.trans howes
    · exact absurd hjob (by simp [hd.jobId_of_owes howes])

/-- A call at work was at work before, unless it has just been made. -/
theorem working_before (h : s.step a = some s') (ha : a.delivers = false) {hd' : Handler}
    (hhd' : s'.handlers[i]? = some hd') (hjob : hd'.phase.jobId.isSome = true) :
    ∃ hd, s.handlers[i]? = some hd ∧ hd.phase.jobId.isSome = true := by
  cases step_move h with
  | delivered _ => cases ha
  | @handler k _ hd _ _ _ hhd hm _ _ =>
      dsimp only at hhd'
      by_cases hki : k = i
      · subst hki
        rw [List.getElem?_set_self (List.getElem?_eq_some_iff.mp hhd).1] at hhd'
        cases hhd'
        refine ⟨hd, hhd, ?_⟩
        rcases hm.jobId_or with ⟨hsame, _⟩ | ⟨hbefore, _⟩
        · rw [← hsame]
          exact hjob
        · exact hbefore
      · rw [List.getElem?_set_ne hki] at hhd'
        exact ⟨hd', hhd', hjob⟩
  | _ => exact ⟨hd', hhd', hjob⟩

end Steps

end World

/-! ## What is still to be delivered -/

namespace Consumer

/-- A record of job `j` is at offset `o`. -/
def Carries (encode : JobMessage → List UInt8) (j : Uuid) (q : Consumer) (o : Nat) : Prop :=
  ∃ message, q.partition.record o = some message ∧ message.payload = some (encode ⟨j⟩)

/-- The record at offset `o` is still to be delivered: its last delivery was not handled
to `Ok`, and it is not in the hands of a call that is at work or has returned `Ok`. -/
def waits (handlers : List Handler) (q : Consumer) (o : Nat) : Bool :=
  !q.settled.contains o &&
    match q.partition.phase with
    | .handling message =>
        message.offset != o || (handlers[q.call]?).any Handler.owesRedelivery
    | _ => true

/-- The messages of a partition that are still to be delivered. -/
def owed (decode : List UInt8 → Except String JobMessage) (handlers : List Handler)
    (q : Consumer) : List Payload :=
  (List.range q.partition.log.length).filterMap fun o =>
    if q.waits handlers o then (q.partition.record o).map (·.read decode) else none

/-- The call at place `i` is at work on, or has returned for, the record in hand. -/
def holds (q : Consumer) (i : Nat) : Bool :=
  match q.partition.phase with
  | .handling _ => q.call == i
  | _ => false

theorem holds_iff {q : Consumer} {i : Nat} :
    q.holds i = true ↔ ∃ message, q.partition.phase = .handling message ∧ q.call = i := by
  unfold holds
  cases q.partition.phase <;> simp

/-- A consumer against its partition and the call it is in. -/
structure Linked (decode : List UInt8 → Except String JobMessage)
    (encode : JobMessage → List UInt8) (s : World) (q : Consumer) : Prop where
  records : ∀ o message, q.partition.record o = some message →
    ∃ j ∈ s.sent, message.payload = some (encode ⟨j⟩)
  received : ∀ message, q.partition.inHand = some message →
    q.partition.position = message.offset + 1 ∧
      q.partition.record message.offset = some message
  call : ∀ message, q.partition.phase = .handling message →
    ∃ hd, s.handlers[q.call]? = some hd ∧ hd.payload = message.read decode
  settled : ∀ o ∈ q.settled, o < q.partition.log.length
  unsettled : ∀ message, q.partition.phase = .handling message → message.offset ∉ q.settled
  position : q.partition.position ≤ q.partition.log.length
  committed : q.partition.committed ≤ q.partition.log.length
  requests : ∀ n ∈ q.partition.requests, n ≤ q.partition.log.length
  plain : ∀ message err, q.partition.phase ≠ .deadLettering message err

section Owed

variable {decode : List UInt8 → Except String JobMessage} {encode : JobMessage → List UInt8}
  {handlers handlers' : List Handler} {q q' : Consumer} {payload : Payload}

theorem waits_iff {o : Nat} :
    q.waits handlers o = true ↔ o ∉ q.settled ∧ ∀ message, q.partition.phase = .handling message →
      message.offset ≠ o ∨ ∃ hd, handlers[q.call]? = some hd ∧ hd.owesRedelivery = true := by
  unfold waits
  cases q.partition.phase <;> simp [Option.any_eq_true]

theorem mem_owed : payload ∈ q.owed decode handlers ↔
    ∃ o message, q.waits handlers o = true ∧ q.partition.record o = some message ∧
      message.read decode = payload := by
  unfold owed
  rw [List.mem_filterMap]
  constructor
  · rintro ⟨o, _, h⟩
    split at h
    · next hwaits =>
        obtain ⟨message, hmessage, hread⟩ := Option.map_eq_some_iff.mp h
        exact ⟨o, message, hwaits, hmessage, hread⟩
    · cases h
  · rintro ⟨o, message, hwaits, hmessage, hread⟩
    obtain ⟨bytes, hbytes, _⟩ := Option.map_eq_some_iff.mp hmessage
    refine ⟨o, List.mem_range.mpr (List.getElem?_eq_some_iff.mp hbytes).1, ?_⟩
    rw [if_pos hwaits, hmessage, Option.map_some, hread]

/-- What is owed stays owed while its records go on waiting. -/
theorem owed_mono (hmem : payload ∈ q.owed decode handlers)
    (hrecord : ∀ o message, q.partition.record o = some message →
      q'.partition.record o = some message)
    (hwaits : ∀ o, q.waits handlers o = true → q'.waits handlers' o = true) :
    payload ∈ q'.owed decode handlers' := by
  obtain ⟨o, message, hw, hm, hread⟩ := mem_owed.mp hmem
  exact mem_owed.mpr ⟨o, message, hwaits o hw, hrecord o message hm, hread⟩

/-- A call that owes its message goes on owing it. -/
theorem owed_of_handlers (hmem : payload ∈ q.owed decode handlers)
    (hgoes : ∀ (i : Nat) (hd : Handler), handlers[i]? = some hd → ∃ hd', handlers'[i]? = some hd' ∧
      (hd.owesRedelivery = true → hd'.owesRedelivery = true)) :
    payload ∈ q.owed decode handlers' := by
  refine owed_mono hmem (fun _ _ h => h) ?_
  intro o hw
  rw [waits_iff] at hw ⊢
  refine ⟨hw.1, ?_⟩
  intro message hphase
  rcases hw.2 message hphase with hne | ⟨hd, hhd, howes⟩
  · exact Or.inl hne
  · obtain ⟨hd', hhd', hkeeps⟩ := hgoes q.call hd hhd
    exact Or.inr ⟨hd', hhd', hkeeps howes⟩

theorem Linked.of_world {s s' : World} (hq : q.Linked decode encode s)
    (hsent : ∀ j ∈ s.sent, j ∈ s'.sent)
    (hcall : ∀ (i : Nat) (hd : Handler), s.handlers[i]? = some hd →
      ∃ hd', s'.handlers[i]? = some hd' ∧ hd'.payload = hd.payload) :
    q.Linked decode encode s' where
  records := by
    intro o message hm
    obtain ⟨j, hj, hpayload⟩ := hq.records o message hm
    exact ⟨j, hsent j hj, hpayload⟩
  received := hq.received
  call := by
    intro message hphase
    obtain ⟨hd, hhd, hpayload⟩ := hq.call message hphase
    obtain ⟨hd', hhd', hsame⟩ := hcall q.call hd hhd
    exact ⟨hd', hhd', hsame.trans hpayload⟩
  settled := hq.settled
  unsettled := hq.unsettled
  position := hq.position
  committed := hq.committed
  requests := hq.requests
  plain := hq.plain

/-- A record stays where it is when messages are put into its partition. -/
theorem record_of_produce {msgs : List JobMessage} {o : Nat} {message : Message}
    (h : q.partition.record o = some message) :
    (q.produce encode msgs).partition.record o = some message := by
  obtain ⟨bytes, hbytes, rfl⟩ := Option.map_eq_some_iff.mp h
  refine Option.map_eq_some_iff.mpr ⟨bytes, ?_, rfl⟩
  change (q.partition.log ++ _)[o]? = some bytes
  rw [List.getElem?_append_left (List.getElem?_eq_some_iff.mp hbytes).1]
  exact hbytes

/-- What has just been put into a partition is owed. -/
theorem owed_produced {s : World} (hq : q.Linked decode encode s)
    (hcodec : ∀ msg, decode (encode msg) = .ok msg) {msgs : List JobMessage} {msg : JobMessage}
    (hmsg : msg ∈ msgs) : .message msg ∈ (q.produce encode msgs).owed decode handlers := by
  obtain ⟨k, hk⟩ := List.mem_iff_getElem?.mp hmsg
  have hat : (q.produce encode msgs).partition.record (q.partition.log.length + k) =
      some ⟨some (encode msg), q.partition.topic, q.partition.partition,
        q.partition.log.length + k⟩ := by
    refine Option.map_eq_some_iff.mpr ⟨some (encode msg), ?_, rfl⟩
    change (q.partition.log ++ _)[q.partition.log.length + k]? = _
    rw [List.getElem?_append_right (Nat.le_add_right _ _), Nat.add_sub_cancel_left,
      List.getElem?_map, hk, Option.map_some]
  refine mem_owed.mpr ⟨_, _, ?_, hat, Message.read_encode hcodec rfl⟩
  rw [waits_iff]
  constructor
  · intro hsettled
    have := hq.settled _ hsettled
    omega
  · intro message hphase
    left
    have hreceived := (hq.received message (by
      simp [Partition.inHand, show q.partition.phase = .handling message from hphase])).1
    have := hq.position
    omega

theorem Linked.produce {s : World} (hq : q.Linked decode encode s) {msgs : List JobMessage}
    (hmsgs : ∀ msg ∈ msgs, msg.jobId ∈ s.sent) : (q.produce encode msgs).Linked decode encode s where
  records := by
    intro o message hm
    rcases record_produce hm with ⟨_, hold⟩ | ⟨_, msg, hmsg, hpayload⟩
    · exact hq.records o message hold
    · exact ⟨msg.jobId, hmsgs msg hmsg, hpayload⟩
  received := by
    intro message hhand
    obtain ⟨hposition, hrecord⟩ := hq.received message hhand
    exact ⟨hposition, record_of_produce hrecord⟩
  call := hq.call
  settled := by
    intro o ho
    have := hq.settled o ho
    simp only [Consumer.produce, List.length_append]
    omega
  unsettled := hq.unsettled
  position := by
    have := hq.position
    simp only [Consumer.produce, List.length_append]
    omega
  committed := by
    have := hq.committed
    simp only [Consumer.produce, List.length_append]
    omega
  requests := by
    intro n hn
    have := hq.requests n hn
    simp only [Consumer.produce, List.length_append]
    omega
  plain := hq.plain

/-- A consumer with nothing in hand, on the records it had. -/
theorem Linked.of_idle {s : World} {q' : Consumer} (hq : q.Linked decode encode s)
    (hidle : q'.partition.phase.isIdle = true)
    (hrecord : ∀ o, q'.partition.record o = q.partition.record o)
    (hsettled : ∀ o ∈ q'.settled, o < q'.partition.log.length)
    (hposition : q'.partition.position ≤ q'.partition.log.length)
    (hcommitted : q'.partition.committed ≤ q'.partition.log.length)
    (hrequests : ∀ n ∈ q'.partition.requests, n ≤ q'.partition.log.length) :
    q'.Linked decode encode s where
  records := by
    intro o message hm
    rw [hrecord] at hm
    exact hq.records o message hm
  received := by
    intro message hhand
    rw [Partition.inHand_of_isIdle hidle] at hhand
    cases hhand
  call := fun message hphase => absurd hphase ((RunPhase.ne_of_isIdle hidle).1 message)
  settled := hsettled
  unsettled := fun message hphase => absurd hphase ((RunPhase.ne_of_isIdle hidle).1 message)
  position := hposition
  committed := hcommitted
  requests := hrequests
  plain := (RunPhase.ne_of_isIdle hidle).2

/-- A consumer that stops or commits leaves nothing behind. -/
theorem Linked.looped {s : World} (hq : q.Linked decode encode s) {a : RunAction}
    {s' : Partition} (hm : q.partition.LoopMove a s') :
    ({ q with partition := s' } : Consumer).Linked decode encode s := by
  cases hm with
  | stayed => exact hq
  | stopped hover _ =>
      exact hq.of_idle (RunPhase.isIdle_of_isOver hover) (fun _ => rfl) hq.settled hq.position
        hq.committed hq.requests
  | @committed message hphase =>
      obtain ⟨hposition, _⟩ := hq.received message (by simp [Partition.inHand, hphase])
      refine hq.of_idle rfl (fun _ => rfl) hq.settled hq.position hq.committed ?_
      intro n hn
      rcases List.mem_cons.mp hn with rfl | hold
      · rw [← hposition]
        exact hq.position
      · exact hq.requests n hold
  | @carried k offset hoffset =>
      exact ⟨hq.records, hq.received, hq.call, hq.settled, hq.unsettled, hq.position,
        hq.requests offset (List.mem_of_getElem? hoffset),
        fun n hn => hq.requests n (List.mem_of_mem_eraseIdx hn), hq.plain⟩

/-- What is unsettled waits, unless a call is made for it. -/
theorem waits_of_free {o : Nat} (hfree : ∀ message, q.partition.phase ≠ .handling message)
    (ho : o ∉ q.settled) : q.waits handlers o = true :=
  waits_iff.mpr ⟨ho, fun message hphase => absurd hphase (hfree message)⟩

end Owed

end Consumer

namespace Cluster

section View

variable (decode : List UInt8 → Except String JobMessage)

/-- The messages that are still to be delivered. -/
def owed (c : Cluster) : List Payload :=
  c.consumers.flatMap (·.owed decode c.world.handlers)

/-- The system, its topic holding what is still to be delivered. -/
def view (c : Cluster) : World :=
  { c.world with queue := c.owed decode }

end View

section Members

variable {decode : List UInt8 → Except String JobMessage} {consumers : List Consumer} {p : Nat}
  {q q' : Consumer} {handlers : List Handler} {payload : Payload}

theorem mem_owed {c : Cluster} :
    payload ∈ c.owed decode ↔ ∃ q ∈ c.consumers, payload ∈ q.owed decode c.world.handlers :=
  List.mem_flatMap

/-- What is owed stays owed when the consumer that moves goes on owing what it owed. -/
theorem exists_owed_set (hq : consumers[p]? = some q)
    (hmem : ∃ q₀ ∈ consumers, payload ∈ q₀.owed decode handlers)
    (hself : payload ∈ q.owed decode handlers → payload ∈ q'.owed decode handlers) :
    ∃ q₀ ∈ consumers.set p q', payload ∈ q₀.owed decode handlers := by
  obtain ⟨q₀, hq₀, howed⟩ := hmem
  obtain ⟨n, hn⟩ := List.mem_iff_getElem?.mp hq₀
  by_cases hnp : n = p
  · subst hnp
    rw [hq] at hn
    cases hn
    exact ⟨q', List.mem_set (List.getElem?_eq_some_iff.mp hq).1 _, hself howed⟩
  · refine ⟨q₀, List.mem_iff_getElem?.mpr ⟨n, ?_⟩, howed⟩
    rw [List.getElem?_set_ne (Ne.symm hnp)]
    exact hn

end Members

/-- A call whose partition was taken from its consumer does not fail, unless a record of
its job is still to be delivered or another call is at work on the job. -/
def FailsCovered (decode : List UInt8 → Except String JobMessage) (c : Cluster)
    (a : ClusterAction) (c' : Cluster) : Prop :=
  match a with
  | .system (.handler i _) _ =>
      ∀ j ∈ (c.world.handlers[i]?).bind (·.phase.jobId),
        (c'.world.handlers[i]?).any Handler.owesRedelivery = true →
          (∃ q ∈ c.consumers, q.holds i = true) ∨ .message ⟨j⟩ ∈ c.owed decode ∨
            ∃ hd ∈ c'.world.handlers, hd.phase.jobId = some j
  | _ => True

instance (decode : List UInt8 → Except String JobMessage) (c : Cluster) (a : ClusterAction)
    (c' : Cluster) : Decidable (FailsCovered decode c a c') := by
  unfold FailsCovered
  split <;> infer_instance

/-- The system with its topic, seen as the system, and the consumers with their calls. -/
structure Kept (decode : List UInt8 → Except String JobMessage)
    (encode : JobMessage → List UInt8) (c : Cluster) : Prop where
  watched : (c.view decode).Watched
  ordinary : (c.view decode).Ordinary
  linked : ∀ q ∈ c.consumers, q.Linked decode encode c.world

section Steps

variable {decode : List UInt8 → Except String JobMessage} {encode : JobMessage → List UInt8}
  {c c' : Cluster} {p : Nat} {q q' : Consumer}

section Codec

variable (hcodec : ∀ msg, decode (encode msg) = .ok msg)

include hcodec

/-- What is owed is a message that was sent. -/
theorem message_of_owed (hlinked : ∀ q ∈ c.consumers, q.Linked decode encode c.world)
    {payload : Payload} (hmem : payload ∈ c.owed decode) :
    ∃ j ∈ c.world.sent, payload = .message ⟨j⟩ := by
  obtain ⟨q, hq, howed⟩ := mem_owed.mp hmem
  obtain ⟨o, message, _, hrecord, rfl⟩ := Consumer.mem_owed.mp howed
  obtain ⟨j, hj, hpayload⟩ := (hlinked q hq).records o message hrecord
  exact ⟨j, hj, Message.read_encode hcodec hpayload⟩

/-- The view of a state, from a system that differs in its topic only. -/
theorem Kept.of_view {w : World} (hwatched : w.Watched) (hordinary : w.Ordinary)
    (hsame : ({ w with queue := c.owed decode } : World) = c.view decode)
    (hlinked : ∀ q ∈ c.consumers, q.Linked decode encode c.world)
    (hkeep : ∀ payload ∈ w.queue, payload ∈ c.owed decode ∨
      ∃ j, payload = .message ⟨j⟩ ∧ ∃ hd ∈ w.handlers, hd.phase.jobId = some j) :
    c.Kept decode encode := by
  have hsentSame : w.sent = c.world.sent := by
    have h := congrArg World.sent hsame
    exact h
  have hsent : ∀ j, .message ⟨j⟩ ∈ c.owed decode → j ∈ w.sent := by
    intro j hmem
    obtain ⟨j', hj', heq⟩ := message_of_owed hcodec hlinked hmem
    cases heq
    rw [hsentSame]
    exact hj'
  refine ⟨?_, ?_, hlinked⟩
  · rw [← hsame]
    refine hwatched.requeue hsent ?_
    intro j hmem
    rcases hkeep _ hmem with hkept | ⟨j', heq, hd, hhd, hjob⟩
    · exact Or.inl hkept
    · cases heq
      exact Or.inr ⟨hd, hhd, hjob⟩
  · rw [← hsame]
    refine hordinary.requeue hsent ?_
    intro payload hmem
    obtain ⟨j, _, heq⟩ := message_of_owed hcodec hlinked hmem
    exact ⟨⟨j⟩, heq⟩

/-- A consumer moves, and nothing else does. -/
theorem Kept.of_consumer (hc : c.Kept decode encode) (hq : c.consumers[p]? = some q)
    (hlinked : q'.Linked decode encode c.world)
    (hrecord : ∀ o message, q.partition.record o = some message →
      q'.partition.record o = some message)
    (hwaits : ∀ o, q.waits c.world.handlers o = true → q'.waits c.world.handlers o = true) :
    ({ c with consumers := c.consumers.set p q' } : Cluster).Kept decode encode := by
  refine Kept.of_view hcodec hc.watched hc.ordinary rfl (forall_set hc.linked hlinked) ?_
  intro payload hmem
  left
  refine mem_owed.mpr (exists_owed_set hq (mem_owed.mp hmem) ?_)
  intro howed
  exact Consumer.owed_mono howed hrecord hwaits

/-- A step of the system, and what it sends goes into a partition. -/
private theorem kept_system {a : Action} {world : World} (hc : c.Kept decode encode)
    (hq : c.consumers[p]? = some q) (ha : a.delivers = false)
    (hstep : c.world.step a = some world)
    (hcond : FailsCovered decode c (.system a p)
      ⟨world, c.consumers.set p (q.produce encode (c.world.accepts a))⟩) :
    (⟨world, c.consumers.set p (q.produce encode (c.world.accepts a))⟩ : Cluster).Kept
      decode encode := by
  obtain ⟨added, _, hview, _, horigin⟩ := World.step_requeued hstep ha (c.owed decode)
  have hsent := World.sent_of_accepts hstep
  have hlinked : ∀ q ∈ c.consumers, q.Linked decode encode world := by
    intro q hq
    refine (hc.linked q hq).of_world (fun j hj => World.step_sent hstep hj) ?_
    intro i hd hhd
    obtain ⟨hd', hhd', hpayload, _⟩ := World.handler_goes_on hstep hhd
    exact ⟨hd', hhd', hpayload⟩
  have hown := hlinked q (List.mem_of_getElem? hq)
  have haccepted : ∀ msg ∈ c.world.accepts a, msg.jobId ∈ world.sent := by
    intro msg hmsg
    rw [hsent]
    exact List.mem_append_left _ (List.mem_map_of_mem hmsg)
  -- a message of a consumer is a message of the consumer the step leaves there
  have hset : ∀ {payload : Payload}, (∃ q ∈ c.consumers, payload ∈ q.owed decode world.handlers) →
      payload ∈ owed decode
        ⟨world, c.consumers.set p (q.produce encode (c.world.accepts a))⟩ := by
    intro payload hmem
    refine mem_owed.mpr (exists_owed_set hq hmem ?_)
    intro howed
    exact Consumer.owed_mono howed (fun _ _ h => Consumer.record_of_produce h) (fun _ h => h)
  refine Kept.of_view hcodec (World.watched_step _ _ _ hc.watched hview)
    (World.ordinary_step _ _ _ hc.ordinary hview) rfl
    (forall_set hlinked (hown.produce haccepted)) ?_
  -- what was owed is owed
  have hstays : ∀ payload ∈ c.owed decode, payload ∈ owed decode
      ⟨world, c.consumers.set p (q.produce encode (c.world.accepts a))⟩ := by
    intro payload hmem
    obtain ⟨q₁, hq₁, howed⟩ := mem_owed.mp hmem
    refine hset ⟨q₁, hq₁, Consumer.owed_of_handlers howed ?_⟩
    intro i hd hhd
    obtain ⟨hd', hhd', _, hkeeps⟩ := World.handler_goes_on hstep hhd
    exact ⟨hd', hhd', hkeeps⟩
  intro payload hmem
  rcases List.mem_append.mp hmem with hnew | hold
  · rcases horigin payload hnew with
      ⟨msg, hmsg, rfl⟩ | ⟨i, input, hd, hd', rfl, hhd, hjob, hhd', howes, rfl⟩
    · exact Or.inl (mem_owed.mpr ⟨_, List.mem_set (List.getElem?_eq_some_iff.mp hq).1 _,
        Consumer.owed_produced hown hcodec hmsg⟩)
    · obtain ⟨j, hj⟩ := Option.isSome_iff_exists.mp hjob
      have hpayload : hd.payload = .message ⟨j⟩ :=
        (hc.watched.provenance.sound.handlers hd (List.mem_of_getElem? hhd)).job j hj
      rcases hcond j (by simp [hhd, hj]) (by simpa [hhd'] using howes) with
        ⟨q₁, hq₁, hholds⟩ | howed | ⟨hd₁, hhd₁, hjob₁⟩
      · -- the call that has ended is this consumer's, whose record waits again
        obtain ⟨message, hphase, rfl⟩ := Consumer.holds_iff.mp hholds
        obtain ⟨hd₁, hhd₁, hread⟩ := (hc.linked q₁ hq₁).call message hphase
        rw [hhd] at hhd₁
        cases hhd₁
        obtain ⟨_, hrecord⟩ := (hc.linked q₁ hq₁).received message (by
          simp [Partition.inHand, hphase])
        refine Or.inl (hset ⟨q₁, hq₁, Consumer.mem_owed.mpr
          ⟨message.offset, message, ?_, hrecord, hread.symm⟩⟩)
        rw [Consumer.waits_iff]
        exact ⟨(hc.linked q₁ hq₁).unsettled message hphase, fun _ _ => Or.inr ⟨hd', hhd', howes⟩⟩
      · rw [hpayload]
        exact Or.inl (hstays _ howed)
      · exact Or.inr ⟨j, hpayload, hd₁, hhd₁, hjob₁⟩
  · exact Or.inl (hstays payload hold)

/-- A record is taken, and a call made for it. -/
private theorem kept_received {message : Message} (hc : c.Kept decode encode)
    (hq : c.consumers[p]? = some q)
    (hrecord : q.partition.record q.partition.position = some message) :
    (⟨{ c.world with
          handlers := c.world.handlers ++ [.receive q.workerId (message.read decode)] },
        c.consumers.set p
          { q with
            partition :=
              { q.partition with
                position := q.partition.position + 1
                phase := .handling message }
            call := c.world.handlers.length
            settled := q.settled.filter (· ≠ q.partition.position) }⟩ : Cluster).Kept decode
      encode := by
  have hown := hc.linked q (List.mem_of_getElem? hq)
  obtain ⟨j, hj, hpayload⟩ := hown.records _ message hrecord
  have hread : message.read decode = .message ⟨j⟩ := Message.read_encode hcodec hpayload
  have hoffset : message.offset = q.partition.position := by
    obtain ⟨bytes, _, rfl⟩ := Option.map_eq_some_iff.mp hrecord
    rfl
  have hlog : q.partition.position < q.partition.log.length := by
    obtain ⟨bytes, hbytes, _⟩ := Option.map_eq_some_iff.mp hrecord
    exact (List.getElem?_eq_some_iff.mp hbytes).1
  have hcalls : ∀ (i : Nat) (hd : Handler), c.world.handlers[i]? = some hd →
      (c.world.handlers ++ [Handler.receive q.workerId (message.read decode)])[i]? = some hd := by
    intro i hd hhd
    rw [List.getElem?_append_left (List.getElem?_eq_some_iff.mp hhd).1]
    exact hhd
  -- the record is put on the topic of the view, whether it waits or not, and taken from it
  have hsent : ∀ j', .message ⟨j'⟩ ∈ Payload.message ⟨j⟩ :: c.owed decode → j' ∈ c.world.sent := by
    intro j' hmem
    rcases List.mem_cons.mp hmem with heq | hold
    · cases heq
      exact hj
    · obtain ⟨_, hsent, heq⟩ := message_of_owed hcodec hc.linked hold
      cases heq
      exact hsent
  have hwatched := hc.watched.requeue hsent
    (fun _ hmem => Or.inl (List.mem_cons_of_mem _ hmem))
  have hordinary := hc.ordinary.requeue hsent (by
    intro payload hmem
    rcases List.mem_cons.mp hmem with rfl | hold
    · exact ⟨⟨j⟩, rfl⟩
    · obtain ⟨j', _, heq⟩ := message_of_owed hcodec hc.linked hold
      exact ⟨⟨j'⟩, heq⟩)
  have hdeliver : ({ c.view decode with queue := Payload.message ⟨j⟩ :: c.owed decode } :
      World).step (.deliver 0 q.workerId false) =
        some { c.view decode with
          handlers := c.world.handlers ++ [.receive q.workerId (.message ⟨j⟩)] } := rfl
  refine Kept.of_view hcodec (World.watched_step _ _ _ hwatched hdeliver)
    (World.ordinary_step _ _ _ hordinary hdeliver) ?_ (forall_set ?_ ?_) ?_
  · rw [hread]
    rfl
  · intro q₀ hq₀
    refine (hc.linked q₀ hq₀).of_world (fun _ h => h) ?_
    intro i hd hhd
    exact ⟨hd, hcalls i hd hhd, rfl⟩
  · refine ⟨hown.records, ?_, ?_, ?_, ?_, hlog, hown.committed, hown.requests, ?_⟩
    · intro message' hhand
      cases hhand
      rw [hoffset]
      exact ⟨rfl, hrecord⟩
    · intro message' hphase
      cases hphase
      refine ⟨.receive q.workerId (message.read decode), ?_, rfl⟩
      simp
    · intro o ho
      exact hown.settled o (List.mem_filter.mp ho).1
    · intro message' hphase hsettled
      cases hphase
      exact of_decide_eq_true (List.mem_filter.mp hsettled).2 hoffset
    · intro message' err hphase
      cases hphase
  · intro payload hmem
    by_cases hthis : payload = .message ⟨j⟩
    · exact Or.inr ⟨j, hthis, _, List.mem_append_right _ (List.mem_singleton_self _), rfl⟩
    · left
      refine mem_owed.mpr (exists_owed_set hq ?_ ?_)
      · obtain ⟨q₀, hq₀, howed⟩ := mem_owed.mp hmem
        refine ⟨q₀, hq₀, Consumer.owed_of_handlers howed ?_⟩
        intro i hd hhd
        exact ⟨hd, hcalls i hd hhd, fun h => h⟩
      · intro howed
        obtain ⟨o, message', hwaits, hmessage', hread'⟩ := Consumer.mem_owed.mp howed
        refine Consumer.mem_owed.mpr ⟨o, message', ?_, hmessage', hread'⟩
        rw [Consumer.waits_iff] at hwaits ⊢
        refine ⟨fun hsettled => hwaits.1 (List.mem_filter.mp hsettled).1, ?_⟩
        intro taken hphase
        cases hphase
        left
        rw [hoffset]
        intro heq
        subst heq
        rw [hrecord] at hmessage'
        cases hmessage'
        exact hthis (hread'.symm.trans hread)

/-- **The system with its topic keeps to the system.** -/
theorem kept_step (c : Cluster) (a : ClusterAction) (c' : Cluster) (hc : c.Kept decode encode)
    (h : c.step decode encode a = some c') (hcond : FailsCovered decode c a c') :
    c'.Kept decode encode := by
  cases step_move h with
  | system hq ha hstep => exact kept_system hcodec hc hq ha hstep hcond
  | received hq _ hrecord => exact kept_received hcodec hc hq hrecord
  | @started p workerId cleanup q phase hq hover hidle =>
      have hown := hc.linked q (List.mem_of_getElem? hq)
      refine Kept.of_consumer hcodec hc hq ?_ (fun _ _ h => h) ?_
      · exact hown.of_idle hidle (fun _ => rfl) hown.settled hown.committed hown.committed
          hown.requests
      · intro o hwaits
        exact Consumer.waits_of_free (RunPhase.ne_of_isIdle hidle).1
          (Consumer.waits_iff.mp hwaits).1
  | @handled p q hd message hq hphase hhd hreturned =>
      have hown := hc.linked q (List.mem_of_getElem? hq)
      obtain ⟨hposition, hrecord⟩ := hown.received message (by simp [Partition.inHand, hphase])
      refine Kept.of_consumer hcodec hc hq ?_ (fun _ _ h => h) ?_
      · refine ⟨hown.records, ?_, ?_, ?_, ?_, hown.position, hown.committed, hown.requests, ?_⟩
        · intro message' hhand
          cases hhand
          exact ⟨hposition, hrecord⟩
        · intro message' hcommitting
          cases hcommitting
        · intro o ho
          rcases List.mem_cons.mp ho with rfl | hold
          · have := hown.position
            change message.offset < q.partition.log.length
            omega
          · exact hown.settled o hold
        · intro message' hcommitting
          cases hcommitting
        · intro message' err hcommitting
          cases hcommitting
      · intro o hwaits
        obtain ⟨hunsettled, hfree⟩ := Consumer.waits_iff.mp hwaits
        refine Consumer.waits_of_free (fun message' hcommitting => by cases hcommitting) ?_
        intro hmem
        rcases List.mem_cons.mp hmem with rfl | hold
        · rcases hfree message hphase with hne | ⟨hd', hhd', howes⟩
          · exact hne rfl
          · rw [hhd] at hhd'
            cases hhd'
            simp [Handler.owesRedelivery, hreturned] at howes
        · exact hunsettled hold
  | @failed p q hd message err hq hphase hhd hreturned =>
      have hown := hc.linked q (List.mem_of_getElem? hq)
      refine Kept.of_consumer hcodec hc hq ?_ (fun _ _ h => h) ?_
      · exact hown.of_idle rfl (fun _ => rfl) hown.settled hown.position hown.committed
          hown.requests
      · intro o hwaits
        exact Consumer.waits_of_free (fun message' hpolling => by cases hpolling)
          (Consumer.waits_iff.mp hwaits).1
  | @rejected p q hd message err hq hphase hhd hreturned =>
      exact absurd hreturned ((hc.ordinary.handlers hd (List.mem_of_getElem? hhd)).accepted err)
  | @looped p a q s hq hpermits hstep =>
      have hown := hc.linked q (List.mem_of_getElem? hq)
      have hm := Consumer.loop_move hpermits hstep hown.plain
      refine Kept.of_consumer hcodec hc hq (hown.looped hm) ?_ ?_
      · intro o message hmessage
        rw [← hmessage]
        refine Partition.record_of_step hstep ?_ o
        rintro payload rfl
        cases hpermits
      · intro o hwaits
        rw [Consumer.waits_iff] at hwaits ⊢
        refine ⟨hwaits.1, ?_⟩
        intro message hphase
        cases hm with
        | stayed | carried _ => exact hwaits.2 message hphase
        | committed _ => cases hphase
        | stopped hover _ =>
            dsimp only at hphase
            subst hphase
            cases hover

end Codec

theorem kept_empty (now : Time) (n : Nat) : (empty now n).Kept decode encode := by
  have hnone : (empty now n).owed decode = [] := by
    refine List.flatMap_eq_nil_iff.mpr ?_
    intro q hq
    obtain ⟨p, _, rfl⟩ := List.mem_map.mp hq
    rfl
  have hview : (empty now n).view decode = .empty now := by
    rw [view, hnone]
    rfl
  refine ⟨by rw [hview]; exact World.watched_empty now, by rw [hview]; exact World.ordinary_empty now,
    ?_⟩
  intro q hq
  obtain ⟨p, _, rfl⟩ := List.mem_map.mp hq
  refine ⟨?_, ?_, ?_, ?_, ?_, Nat.le_refl _, Nat.le_refl _, ?_, ?_⟩ <;>
    simp [Consumer.empty, Partition.empty, Partition.record, Partition.inHand]

end Steps

end Cluster

end EditorBack
