/-
**A transfer forwards every message once.**

Telegram and the database commit separately, so a crash can leave copies in the archive that no
mapping records.  What makes the recovery of such copies work is that they all lie above the place
where the tail scan starts: every copy is mapped, or its id exceeds the ids of all mapped copies and
the baseline of the archive.

* `TransferWorld.Copies`, `TransferWorld.Posts` — what the archive holds;
* `TransferWorld.Recorded` — what the database knows about it;
* `TransferWorld.Stands` — the invariant of a call at each of its phases;
* `TransferWorld.Faithful` — the assumptions on Telegram and on whoever else posts;
* `TransferWorld.transfer_exactly_once` — in every state of every run no source message has been
  forwarded twice, the mapping is injective and counted, and the checkpoint is covered.
-/

import CineGate.Transfer

set_option relaxedAutoImplicit false
set_option autoImplicit false

namespace CineGate

namespace ImportMap

/-- The largest mapped copy. -/
theorem maxMappedArchiveMessageId_spec (m : ImportMap) :
    (m.maxMappedArchiveMessageId = none ∧ ∀ row, row ∉ m.rows) ∨
      ∃ row ∈ m.rows, m.maxMappedArchiveMessageId = some row.archiveMessageId ∧
        ∀ row' ∈ m.rows, row'.archiveMessageId ≤ row.archiveMessageId := by
  unfold maxMappedArchiveMessageId
  cases h : (m.rows.rows.map ImportMapping.archiveMessageId).max? with
  | none =>
      left
      refine ⟨rfl, fun row hrow => ?_⟩
      rw [List.max?_eq_none_iff, List.map_eq_nil_iff] at h
      have hmem : row ∈ m.rows.rows := hrow
      rw [h] at hmem
      cases hmem
  | some largest =>
      right
      obtain ⟨hmem, hle⟩ := List.max?_eq_some_iff.1 h
      obtain ⟨row, hrow, rfl⟩ := List.mem_map.1 hmem
      exact ⟨row, hrow, rfl, fun row' hrow' => hle _ (List.mem_map_of_mem hrow')⟩

end ImportMap

/-- The strict order of a list of ids. -/
theorem pairwise_of_isStrictlyIncreasing {values : List ℕ}
    (h : isStrictlyIncreasing values = true) :
    values.Pairwise (· < ·) := by
  induction values with
  | nil => exact List.Pairwise.nil
  | cons v values ih =>
      cases values with
      | nil => exact List.pairwise_singleton _ _
      | cons v' values =>
          simp only [isStrictlyIncreasing, List.tail_cons, List.zip_cons_cons, List.all_cons,
            Bool.and_eq_true, decide_eq_true_eq] at h
          have htail := ih (by simpa [isStrictlyIncreasing] using h.2)
          refine List.pairwise_cons.2 ⟨fun x hx => ?_, htail⟩
          rcases List.mem_cons.1 hx with rfl | hx
          · exact h.1
          · exact h.1.trans ((List.pairwise_cons.1 htail).1 x hx)

namespace TransferWorld

variable {w w' : TransferWorld}

/-! ### The archive -/

/-- The archive holds a copy of the source message under the id. -/
def Copies (w : TransferWorld) (sourceMessageId archiveMessageId : ℕ) : Prop :=
  ∃ m ∈ w.archive, m.id = archiveMessageId ∧ w.source? m = some sourceMessageId

/-- The archive holds a message with the id. -/
def Posts (w : TransferWorld) (archiveMessageId : ℕ) : Prop :=
  ∃ m ∈ w.archive, m.id = archiveMessageId

theorem Copies.posts {s a : ℕ} (h : w.Copies s a) : w.Posts a := by
  obtain ⟨m, hm, hid, -⟩ := h
  exact ⟨m, hm, hid⟩

/-- A message above all others is added to the archive. -/
theorem mem_insert_archive {channel : Channel} {m x : TelegramMessage}
    (h : ∀ m' ∈ channel, m'.id < m.id) : x ∈ channel.insert m ↔ x = m ∨ x ∈ channel := by
  refine KeyedTable.mem_insert ?_
  exact KeyedTable.find?_eq_none.2 fun m' hm' => (h m' hm').ne

/-- Messages in ascending order above all others are added to the archive. -/
theorem mem_foldl_insert {channel : Channel} {accepted : List TelegramMessage} {x : TelegramMessage}
    (hascending : accepted.Pairwise fun m m' => m.id < m'.id)
    (hfresh : ∀ m ∈ accepted, ∀ m' ∈ channel, m'.id < m.id) :
    x ∈ accepted.foldl KeyedTable.insert channel ↔ x ∈ channel ∨ x ∈ accepted := by
  induction accepted generalizing channel with
  | nil => simp
  | cons m accepted ih =>
      obtain ⟨hm, hascending⟩ := List.pairwise_cons.1 hascending
      have hmem : ∀ {y}, y ∈ channel.insert m ↔ y = m ∨ y ∈ channel :=
        mem_insert_archive (hfresh m List.mem_cons_self)
      have hfresh' : ∀ m' ∈ accepted, ∀ y ∈ channel.insert m, y.id < m'.id := by
        intro m' hm' y hy
        rcases hmem.1 hy with rfl | hy
        · exact hm m' hm'
        · exact hfresh m' (List.mem_cons_of_mem _ hm') y hy
      rw [List.foldl_cons, ih hascending hfresh', hmem, List.mem_cons]
      tauto

/-- The message the tail scan reads next is the first one beyond its cursor. -/
theorem nextArchiveMessage?_eq_some {cursor : ℕ} {m : TelegramMessage}
    (h : w.nextArchiveMessage? cursor = some m) :
    m ∈ w.archive ∧ cursor < m.id ∧ ∀ m' ∈ w.archive, m'.id ≤ m.id → m'.id ≤ cursor ∨ m' = m := by
  unfold nextArchiveMessage? at h
  rw [List.find?_eq_some_iff_append] at h
  obtain ⟨hlt, before, after, hrows, hbefore⟩ := h
  have hmem : m ∈ w.archive := by
    rw [← KeyedTable.mem_rows, hrows]
    simp
  refine ⟨hmem, by simpa using hlt, fun m' hm' hle => ?_⟩
  rw [← KeyedTable.mem_rows, hrows, List.mem_append, List.mem_cons] at hm'
  have hordered := w.archive.ordered
  rw [hrows, List.pairwise_append, List.pairwise_cons] at hordered
  rcases hm' with hm' | rfl | hm'
  · exact .inl (by simpa using hbefore m' hm')
  · exact .inr rfl
  · have hm := hordered.2.1.1 m' hm'
    omega

theorem nextArchiveMessage?_eq_none {cursor : ℕ} (h : w.nextArchiveMessage? cursor = none) :
    ∀ m ∈ w.archive, m.id ≤ cursor := by
  intro m hm
  unfold nextArchiveMessage? at h
  simpa using List.find?_eq_none.1 h m hm

theorem posts_latestMessageId (w : TransferWorld) :
    w.archive.latestMessageId = 0 ∨ w.Posts w.archive.latestMessageId := by
  unfold Channel.latestMessageId
  cases h : w.archive.rows.getLast? with
  | none => exact .inl rfl
  | some m => exact .inr ⟨m, List.mem_of_getLast? h, rfl⟩

/-! ### The database -/

/-- What the database knows: mapped copies and the baseline are in the archive; the snapshot is
taken as a whole; **every copy is mapped, or lies above all mapped copies and the baseline**; the
mappings are counted; every importable message up to the checkpoint is mapped; and every importable
message is mapped once the job is transferred. -/
structure Recorded (w : TransferWorld) (r : ImportRecord) : Prop where
  posted : ∀ row ∈ r.map.rows, w.Posts row.archiveMessageId
  baseline : ∀ b, r.job.archiveBaselineMessageId = some b → b = 0 ∨ w.Posts b
  measured : r.job.sourceHighWatermarkId.isSome → r.job.archiveBaselineMessageId.isSome
  origin : ∀ s a, w.Copies s a → ∃ high b, r.job.sourceHighWatermarkId = some high ∧
    r.job.archiveBaselineMessageId = some b ∧ s ≤ high ∧
      (r.map.Maps s ∨ b < a ∧ ∀ row ∈ r.map.rows, row.archiveMessageId < a)
  counted : r.job.copiedMessages = r.map.count
  covered : ∀ m ∈ w.history, isImportable (some m) → m.id ≤ r.job.lastCopiedSourceMessageId →
    r.map.Maps m.id
  transferred : r.job.status = .transferred → ∃ high, r.job.sourceHighWatermarkId = some high ∧
    ∀ m ∈ w.history, isImportable (some m) → m.id ≤ high → r.map.Maps m.id

/-- Mappings that can be recorded: distinct copies above all mapped ones. -/
structure Recordable (w : TransferWorld) (r : ImportRecord) (mappings : List (ℕ × ℕ)) : Prop where
  ascending : mappings.Pairwise fun p q => p.2 < q.2
  posted : ∀ p ∈ mappings, w.Posts p.2
  above : ∀ p ∈ mappings, ∀ row ∈ r.map.rows, row.archiveMessageId < p.2

theorem Recordable.nil {r : ImportRecord} : w.Recordable r [] :=
  ⟨List.Pairwise.nil, fun _ h => (by cases h), fun _ h => (by cases h)⟩

/-- What is recorded is mapped. -/
theorem Recordable.maps {r : ImportRecord} {mappings : List (ℕ × ℕ)} (h : w.Recordable r mappings)
    {p : ℕ × ℕ} (hp : p ∈ mappings) : (r.map.insertMappings mappings).1.Maps p.1 := by
  refine ImportMap.maps_insertMappings (h.ascending.imp fun hlt => hlt.ne) ?_ hp
  exact fun p' hp' row hrow => (h.above p' hp' row hrow).ne

/-- Everything in the archive is mapped. -/
def AllMapped (w : TransferWorld) (r : ImportRecord) : Prop := ∀ s a, w.Copies s a → r.map.Maps s

/-- The messages the transfer has still to read. -/
structure Remaining (w : TransferWorld) (r : ImportRecord) (rest : List TelegramMessage) :
    Prop where
  ordered : rest.Pairwise fun m m' => m.id < m'.id
  beyond : ∀ m ∈ rest, r.job.lastCopiedSourceMessageId < m.id
  high : ∀ m ∈ rest, ∃ high, r.job.sourceHighWatermarkId = some high ∧ m.id ≤ high
  complete : ∀ m ∈ w.history, r.job.lastCopiedSourceMessageId < m.id →
    (∀ high, r.job.sourceHighWatermarkId = some high → m.id ≤ high) → m ∈ rest

/-- How far the tail scan has come: the copies up to its cursor are mapped or pending. -/
structure Scanned (w : TransferWorld) (r : ImportRecord) (cursor : ℕ) (pending : List (ℕ × ℕ)) :
    Prop where
  behind : ∀ s a, w.Copies s a → a ≤ cursor → r.map.Maps s ∨ (s, a) ∈ pending
  rows : ∀ row ∈ r.map.rows, row.archiveMessageId ≤ cursor
  bounded : ∀ p ∈ pending, p.2 ≤ cursor
  recordable : w.Recordable r pending

/-- The local copy of the job agrees with the row on the snapshot, which has been taken. -/
def SameSnapshot (r : ImportRecord) (job : ImportJob) : Prop :=
  job.sourceHighWatermarkId = r.job.sourceHighWatermarkId ∧
    job.archiveBaselineMessageId = r.job.archiveBaselineMessageId ∧
      r.job.sourceHighWatermarkId.isSome

/-- The invariant of a call at each of its phases. -/
def Stands (w : TransferWorld) (r : ImportRecord) (c : TransferCall) : Prop :=
  match c.phase with
  | .opening | .measuring | .failing _ => True
  | .initializing _ archiveBaseline _ => archiveBaseline = 0 ∨ w.Posts archiveBaseline
  | .seeking => SameSnapshot r c.job
  | .scanning cursor pending | .flushing cursor pending =>
      SameSnapshot r c.job ∧ w.Scanned r cursor pending
  | .settling pending =>
      r.job.sourceHighWatermarkId.isSome ∧ w.Recordable r pending ∧
        ∀ s a, w.Copies s a → r.map.Maps s ∨ (s, a) ∈ pending
  | .running => r.job.sourceHighWatermarkId.isSome ∧ w.AllMapped r
  | .batching rest =>
      r.job.sourceHighWatermarkId.isSome ∧ w.AllMapped r ∧ w.Remaining r rest
  | .forwarding batch toForward rest _ =>
      r.job.sourceHighWatermarkId.isSome ∧ w.AllMapped r ∧ w.Remaining r (batch ++ rest) ∧
        batch ≠ [] ∧ (∀ m ∈ toForward, m ∈ batch ∧ ¬ r.map.Maps m.id) ∧
          ∀ m ∈ batch, isImportable (some m) → r.map.Maps m.id ∨ m ∈ toForward
  | .recording batch forwardedMappings rest =>
      r.job.sourceHighWatermarkId.isSome ∧ w.Remaining r (batch ++ rest) ∧ batch ≠ [] ∧
        w.Recordable r forwardedMappings ∧
          (∀ m ∈ batch, isImportable (some m) →
            r.map.Maps m.id ∨ ∃ p ∈ forwardedMappings, p.1 = m.id) ∧
            ∀ s a, w.Copies s a → r.map.Maps s ∨ ∃ p ∈ forwardedMappings, p.1 = s
  | .finishing =>
      r.job.sourceHighWatermarkId.isSome ∧ ∀ m ∈ w.history,
        (∀ high, r.job.sourceHighWatermarkId = some high → m.id ≤ high) →
          m.id ≤ r.job.lastCopiedSourceMessageId

/-- **The invariant.**  No message has been forwarded twice; without a job nothing has been
forwarded; and the database and the call under way meet their invariants. -/
structure Sound (w : TransferWorld) : Prop where
  once : ∀ s a b, w.Copies s a → w.Copies s b → a = b
  unopened : w.record = none → ∀ s a, ¬ w.Copies s a
  recorded : ∀ r, w.record = some r → w.Recorded r
  call : ∀ c, w.call = some c →
    (c.phase matches .opening) ∨ ∃ r, w.record = some r ∧ w.Stands r c

/-! ### The assumptions -/

/-- A request of Telegram's: the copies it makes of messages to be forwarded have fresh ascending
ids and faithful headers, no message is copied twice, a reply returns copies it has made, and a
flood wait refuses the request. -/
structure Accepts (w : TransferWorld) (toForward : List TelegramMessage)
    (request : ForwardRequest) :
    Prop where
  ascending : request.accepted.Pairwise fun m m' => m.id < m'.id
  positive : ∀ m ∈ request.accepted, 0 < m.id
  fresh : ∀ m ∈ request.accepted, ∀ m' ∈ w.archive, m'.id < m.id
  headers : ∀ m ∈ request.accepted, ∃ x ∈ toForward, w.source? m = some x.id
  distinct : ∀ m ∈ request.accepted, ∀ m' ∈ request.accepted, w.source? m = w.source? m' → m = m'
  replied : ∀ copies, request.reply = .messages copies → ∀ m, some m ∈ copies → m ∈ request.accepted
  refused : ∀ seconds, request.reply = .floodWait seconds → request.accepted = []

/-- The assumptions on an event: Telegram accepts a request as it does, and whoever else posts in
the archive does not forward from the source. -/
def Faithful (w : TransferWorld) : TransferEvent → Prop
  | .forward request => ∀ c batch toForward rest floodRetries, w.call = some c →
      c.phase = .forwarding batch toForward rest floodRetries → w.Accepts toForward request
  | .posted message => w.source? message = none ∧ ∀ m ∈ w.archive, m.id < message.id
  | _ => True

/-! ### What the archive is for the invariant -/

/-- The same copies, in an archive that may hold more messages. -/
structure SameCopies (w w' : TransferWorld) : Prop where
  history : w'.history = w.history
  copies : ∀ s a, w'.Copies s a ↔ w.Copies s a
  posts : ∀ a, w.Posts a → w'.Posts a

theorem Recorded.of_sameCopies {r : ImportRecord} (hr : w.Recorded r) (h : w.SameCopies w') :
    w'.Recorded r := by
  refine ⟨fun row hrow => h.posts _ (hr.posted row hrow), fun b hb => ?_, hr.measured,
    fun s a hcopy => ?_, hr.counted, ?_, ?_⟩
  · exact (hr.baseline b hb).imp_right (h.posts b)
  · exact hr.origin s a ((h.copies s a).1 hcopy)
  · rw [h.history]
    exact hr.covered
  · rw [h.history]
    exact hr.transferred

theorem Recordable.of_sameCopies {r : ImportRecord} {mappings : List (ℕ × ℕ)}
    (hm : w.Recordable r mappings) (h : w.SameCopies w') : w'.Recordable r mappings :=
  ⟨hm.ascending, fun p hp => h.posts _ (hm.posted p hp), hm.above⟩

theorem Remaining.of_history {r : ImportRecord} {rest : List TelegramMessage}
    (hrest : w.Remaining r rest) (h : w'.history = w.history) : w'.Remaining r rest := by
  refine ⟨hrest.ordered, hrest.beyond, hrest.high, ?_⟩
  rw [h]
  exact hrest.complete

theorem AllMapped.of_sameCopies {r : ImportRecord} (hall : w.AllMapped r) (h : w.SameCopies w') :
    w'.AllMapped r := fun s a hcopy => hall s a ((h.copies s a).1 hcopy)

theorem Stands.of_sameCopies {r : ImportRecord} {c : TransferCall} (hc : w.Stands r c)
    (h : w.SameCopies w') : w'.Stands r c := by
  have hscanned : ∀ {cursor pending}, w.Scanned r cursor pending → w'.Scanned r cursor pending := by
    intro cursor pending hs
    exact ⟨fun s a hcopy => hs.behind s a ((h.copies s a).1 hcopy), hs.rows, hs.bounded,
      hs.recordable.of_sameCopies h⟩
  -- the phases in the order of `Stands`: what they say of the copies and the source is unchanged
  unfold Stands at hc ⊢
  split
  · trivial
  · trivial
  · trivial
  · next hphase =>
      simp only [hphase] at hc
      exact hc.imp_right (h.posts _)
  · next hphase =>
      simp only [hphase] at hc
      exact hc
  · next hphase =>
      simp only [hphase] at hc
      exact ⟨hc.1, hscanned hc.2⟩
  · next hphase =>
      simp only [hphase] at hc
      exact ⟨hc.1, hscanned hc.2⟩
  · next hphase =>
      simp only [hphase] at hc
      exact ⟨hc.1, hc.2.1.of_sameCopies h, fun s a hcopy => hc.2.2 s a ((h.copies s a).1 hcopy)⟩
  · next hphase =>
      simp only [hphase] at hc
      exact ⟨hc.1, hc.2.of_sameCopies h⟩
  · next hphase =>
      simp only [hphase] at hc
      exact ⟨hc.1, hc.2.1.of_sameCopies h, hc.2.2.of_history h.history⟩
  · next hphase =>
      simp only [hphase] at hc
      exact ⟨hc.1, hc.2.1.of_sameCopies h, hc.2.2.1.of_history h.history, hc.2.2.2⟩
  · next hphase =>
      simp only [hphase] at hc
      obtain ⟨hhigh, hrest, hne, hrecordable, hbatch, hcopies⟩ := hc
      exact ⟨hhigh, hrest.of_history h.history, hne, hrecordable.of_sameCopies h, hbatch,
        fun s a hcopy => hcopies s a ((h.copies s a).1 hcopy)⟩
  · next hphase =>
      simp only [hphase] at hc
      rw [h.history]
      exact hc

theorem Sound.of_sameCopies (hw : w.Sound) (h : w.SameCopies w') (hrecord : w'.record = w.record)
    (hcall : w'.call = w.call) : w'.Sound := by
  refine ⟨fun s a b ha hb => ?_, fun hnone s a hcopy => ?_, fun r hr => ?_, fun c hc => ?_⟩
  · exact hw.once s a b ((h.copies s a).1 ha) ((h.copies s b).1 hb)
  · exact hw.unopened (hrecord ▸ hnone) s a ((h.copies s a).1 hcopy)
  · exact (hw.recorded r (hrecord ▸ hr)).of_sameCopies h
  · refine (hw.call c (hcall ▸ hc)).imp_right ?_
    rintro ⟨r, hr, hstands⟩
    exact ⟨r, hrecord.trans hr, hstands.of_sameCopies h⟩

/-- The record and the call do not touch the archive. -/
theorem SameCopies.of_archive (record : Option ImportRecord) (call : Option TransferCall) :
    w.SameCopies { w with record, call } :=
  ⟨rfl, fun _ _ => Iff.rfl, fun _ h => h⟩

/-- The call ends. -/
theorem Sound.stop (hw : w.Sound) : w.stop.Sound := by
  have hsame : w.SameCopies w.stop := .of_archive w.record none
  exact ⟨hw.once, hw.unopened, fun r hr => (hw.recorded r hr).of_sameCopies hsame,
    fun _ h => (by cases h)⟩

/-- The call commits and goes on, or ends. -/
theorem Sound.commit (hw : w.Sound) {r : ImportRecord} {call : Option TransferCall}
    (hr : w.Recorded r) (hcall : ∀ c, call = some c → w.Stands r c) :
    Sound { w with record := some r, call } := by
  have hsame : w.SameCopies { w with record := some r, call } := .of_archive (some r) call
  refine ⟨hw.once, fun h => (by cases h), fun r' hr' => ?_, fun c hc =>
    .inr ⟨r, rfl, (hcall c hc).of_sameCopies hsame⟩⟩
  obtain rfl := Option.some.inj hr'
  exact hr.of_sameCopies hsame

/-- The call goes on without a commit. -/
theorem Sound.goTo (hw : w.Sound) {r : ImportRecord} (hr : w.record = some r) {c : TransferCall}
    {phase : TransferPhase} (hstands : w.Stands r { c with phase }) : (w.goTo c phase).Sound := by
  have hsame : w.SameCopies (w.goTo c phase) := .of_archive w.record _
  refine ⟨hw.once, hw.unopened, fun r hr => (hw.recorded r hr).of_sameCopies hsame,
    fun c' hc' => .inr ⟨r, hr, ?_⟩⟩
  obtain rfl := Option.some.inj hc'
  exact hstands.of_sameCopies hsame

/-! ### Opening the job -/

/-- A change of the job that leaves the snapshot, the checkpoint and the count. -/
theorem Recorded.of_job {r : ImportRecord} (hr : w.Recorded r) {job : ImportJob}
    (hhigh : job.sourceHighWatermarkId = r.job.sourceHighWatermarkId)
    (hbaseline : job.archiveBaselineMessageId = r.job.archiveBaselineMessageId)
    (hlast : job.lastCopiedSourceMessageId = r.job.lastCopiedSourceMessageId)
    (hcopied : job.copiedMessages = r.job.copiedMessages)
    (htransferred : job.status = .transferred → ∃ high, r.job.sourceHighWatermarkId = some high ∧
      ∀ m ∈ w.history, isImportable (some m) → m.id ≤ high → r.map.Maps m.id) :
    w.Recorded { r with job } := by
  refine ⟨hr.posted, fun b hb => hr.baseline b (hbaseline ▸ hb), fun h => ?_, fun s a hcopy => ?_,
    hcopied.trans hr.counted, fun m hm himportable hle => ?_, fun h => ?_⟩
  · dsimp only at h ⊢
    rw [hbaseline]
    exact hr.measured (hhigh ▸ h)
  · obtain ⟨high, b, h₁, h₂, h₃⟩ := hr.origin s a hcopy
    exact ⟨high, b, hhigh.trans h₁, hbaseline.trans h₂, h₃⟩
  · exact hr.covered m hm himportable (hlast ▸ hle)
  · obtain ⟨high, h₁, h₂⟩ := htransferred h
    exact ⟨high, hhigh.trans h₁, h₂⟩

/-- A job that has just been created. -/
theorem recorded_new (h : ∀ s a, ¬ w.Copies s a) : w.Recorded ⟨{}, .empty⟩ := by
  refine ⟨fun _ h => (by cases h), fun _ h => (by cases h), fun h => (by cases h),
    fun s a hcopy => absurd hcopy (h s a), rfl, fun m _ himportable hle => ?_,
    fun h => (by cases h)⟩
  simp only [isImportable, Bool.and_eq_true, decide_eq_true_eq] at himportable
  dsimp only at hle
  omega

theorem Sound.openJob (hw : w.Sound) {c : TransferCall} : (w.openJob c).Sound := by
  have hr : w.Recorded (w.record.getD ⟨{}, .empty⟩) := by
    cases hrecord : w.record with
    | none => exact recorded_new (hw.unopened hrecord)
    | some r => exact hw.recorded r hrecord
  unfold TransferWorld.openJob
  dsimp only
  generalize w.record.getD ⟨{}, .empty⟩ = r at hr ⊢
  have hstop : Sound { w with record := some r }.stop := hw.commit hr fun _ h => (by cases h)
  split
  · exact hstop
  · exact hstop
  · refine hw.commit hr fun c' hc' => ?_
    obtain rfl := Option.some.inj hc'
    by_cases hhigh : r.job.sourceHighWatermarkId = none
    · simp only [hhigh, if_true]
      trivial
    · simp only [hhigh, if_false]
      exact ⟨rfl, rfl, Option.isSome_iff_ne_none.2 hhigh⟩

/-- The snapshot is taken before anything has been forwarded. -/
theorem Recorded.initializeSnapshot {r : ImportRecord} (hr : w.Recorded r)
    {sourceHigh archiveBaseline : ℕ} {total : Option ℕ}
    (hbaseline : archiveBaseline = 0 ∨ w.Posts archiveBaseline) :
    w.Recorded { r with job := r.job.initializeSnapshot sourceHigh archiveBaseline total } := by
  unfold ImportJob.initializeSnapshot
  split
  · next hnone =>
      refine ⟨hr.posted, fun b hb => ?_, fun _ => rfl, fun s a hcopy => ?_, hr.counted, hr.covered,
        fun h => ?_⟩
      · obtain rfl := Option.some.inj hb
        exact hbaseline
      · obtain ⟨high, b, hhigh, -⟩ := hr.origin s a hcopy
        cases hnone.symm.trans hhigh
      · obtain ⟨high, hhigh, -⟩ := hr.transferred h
        cases hnone.symm.trans hhigh
  · exact hr

theorem isSome_initializeSnapshot {job : ImportJob} {sourceHigh archiveBaseline : ℕ}
    {total : Option ℕ} :
    (job.initializeSnapshot sourceHigh archiveBaseline total).sourceHighWatermarkId.isSome := by
  unfold ImportJob.initializeSnapshot
  split
  · rfl
  · next h => exact Option.isSome_iff_ne_none.2 h

/-! ### The tail scan -/

/-- The scan starts below every copy that is not mapped. -/
theorem Recorded.scanned {r : ImportRecord} (hr : w.Recorded r) {job : ImportJob}
    (hsame : SameSnapshot r job) :
    w.Scanned r (r.map.maxMappedArchiveMessageId.getD (job.archiveBaselineMessageId.getD 0))
      [] := by
  obtain ⟨-, hbaseline, -⟩ := hsame
  rcases r.map.maxMappedArchiveMessageId_spec with ⟨hnone, hempty⟩ | ⟨row, hrow, hsome, hmax⟩
  · rw [hnone, Option.getD_none]
    refine ⟨fun s a hcopy hle => ?_, fun row hrow => absurd hrow (hempty row),
      fun _ h => (by cases h), .nil⟩
    obtain ⟨high, b, -, hb, -, hmaps | ⟨hlt, -⟩⟩ := hr.origin s a hcopy
    · exact .inl hmaps
    · rw [hbaseline, hb, Option.getD_some] at hle
      omega
  · rw [hsome, Option.getD_some]
    refine ⟨fun s a hcopy hle => ?_, hmax, fun _ h => (by cases h), .nil⟩
    obtain ⟨high, b, -, -, -, hmaps | ⟨-, habove⟩⟩ := hr.origin s a hcopy
    · exact .inl hmaps
    · have hlt := habove row hrow
      omega

/-- The cursor moves past a message that is no copy. -/
theorem Scanned.skip {r : ImportRecord} {cursor : ℕ} {pending : List (ℕ × ℕ)}
    (hs : w.Scanned r cursor pending) {m : TelegramMessage}
    (hnext : w.nextArchiveMessage? cursor = some m) (hskip : w.source? m = none) :
    w.Scanned r m.id pending := by
  obtain ⟨-, hlt, hfirst⟩ := nextArchiveMessage?_eq_some hnext
  refine ⟨fun s a hcopy hle => ?_, fun row hrow => (hs.rows row hrow).trans hlt.le,
    fun p hp => (hs.bounded p hp).trans hlt.le, hs.recordable⟩
  obtain ⟨m', hm', rfl, hsource⟩ := hcopy
  rcases hfirst m' hm' hle with hle' | rfl
  · exact hs.behind s m'.id ⟨m', hm', rfl, hsource⟩ hle'
  · cases hskip.symm.trans hsource

/-- The scan takes note of a copy. -/
theorem Scanned.push {r : ImportRecord} {cursor : ℕ} {pending : List (ℕ × ℕ)}
    (hs : w.Scanned r cursor pending) {m : TelegramMessage}
    (hnext : w.nextArchiveMessage? cursor = some m) {sourceMessageId : ℕ}
    (hsource : w.source? m = some sourceMessageId) :
    w.Scanned r m.id (pending ++ [(sourceMessageId, m.id)]) := by
  obtain ⟨hm, hlt, hfirst⟩ := nextArchiveMessage?_eq_some hnext
  refine ⟨fun s a hcopy hle => ?_, fun row hrow => (hs.rows row hrow).trans hlt.le,
    fun p hp => ?_, ?_, fun p hp => ?_, fun p hp row hrow => ?_⟩
  · obtain ⟨m', hm', rfl, hsource'⟩ := hcopy
    rcases hfirst m' hm' hle with hle' | rfl
    · exact (hs.behind s m'.id ⟨m', hm', rfl, hsource'⟩ hle').imp_right
        (List.mem_append_left _)
    · obtain rfl := Option.some.inj (hsource.symm.trans hsource')
      exact .inr (List.mem_append_right _ List.mem_cons_self)
  · rcases List.mem_append.1 hp with hp | hp
    · exact (hs.bounded p hp).trans hlt.le
    · rw [List.mem_singleton.1 hp]
  · refine List.pairwise_append.2 ⟨hs.recordable.ascending, List.pairwise_singleton _ _, ?_⟩
    intro p hp q hq
    rw [List.mem_singleton.1 hq]
    exact (hs.bounded p hp).trans_lt hlt
  · rcases List.mem_append.1 hp with hp | hp
    · exact hs.recordable.posted p hp
    · rw [List.mem_singleton.1 hp]
      exact ⟨m, hm, rfl⟩
  · rcases List.mem_append.1 hp with hp | hp
    · exact hs.recordable.above p hp row hrow
    · rw [List.mem_singleton.1 hp]
      exact (hs.rows row hrow).trans_lt hlt

theorem Sound.scan (hw : w.Sound) {r : ImportRecord} (hr : w.record = some r) {c : TransferCall}
    {cursor : ℕ} {pending : List (ℕ × ℕ)} (hsame : SameSnapshot r c.job)
    (hs : w.Scanned r cursor pending) : (w.scan c cursor pending).Sound := by
  unfold TransferWorld.scan
  split
  · next hnext =>
      -- the end of the archive: every copy is mapped or pending
      have hend := nextArchiveMessage?_eq_none hnext
      have hall : ∀ s a, w.Copies s a → r.map.Maps s ∨ (s, a) ∈ pending := by
        intro s a hcopy
        obtain ⟨m, hm, rfl, -⟩ := id hcopy
        exact hs.behind s m.id hcopy (hend m hm)
      refine hw.goTo hr ?_
      by_cases hpending : pending = []
      · subst hpending
        simp only [if_true]
        exact ⟨hsame.2.2, fun s a hcopy => (hall s a hcopy).resolve_right (by simp)⟩
      · simp only [hpending, if_false]
        exact ⟨hsame.2.2, hs.recordable, hall⟩
  · next m hnext =>
      split
      · next hskip => exact hw.goTo hr ⟨hsame, hs.skip hnext hskip⟩
      · next sourceMessageId hsource =>
          split
          · next hhigh =>
              -- nothing beyond the high watermark has been forwarded
              obtain ⟨hm, -⟩ := nextArchiveMessage?_eq_some hnext
              obtain ⟨high, b, hhigh', -, hle, -⟩ :=
                (hw.recorded r hr).origin sourceMessageId m.id ⟨m, hm, rfl, hsource⟩
              rw [hsame.1, hhigh'] at hhigh
              simp only [Option.any_some, decide_eq_true_eq] at hhigh
              omega
          · dsimp only
            split
            · exact hw.goTo hr ⟨hsame, hs.push hnext hsource⟩
            · exact hw.goTo hr ⟨hsame, hs.push hnext hsource⟩

/-- The pending copies are recorded. -/
theorem Recorded.reconciled {r : ImportRecord} (hr : w.Recorded r) {pending : List (ℕ × ℕ)}
    (hrecordable : w.Recordable r pending)
    (hcopies : ∀ s a, w.Copies s a → r.map.Maps s ∨ (s, a) ∈ pending ∨ ∀ p ∈ pending, p.2 < a) :
    w.Recorded (r.recordReconciledMappings pending) := by
  refine ⟨fun row hrow => ?_, hr.baseline, hr.measured, fun s a hcopy => ?_, ?_,
    fun m hm himportable hle => (hr.covered m hm himportable hle).insertMappings, fun h => ?_⟩
  · rcases ImportMap.mem_of_mem_insertMappings hrow with hrow | hrow
    · exact hr.posted row hrow
    · exact hrecordable.posted _ hrow
  · obtain ⟨high, b, hhigh, hb, hle, horigin⟩ := hr.origin s a hcopy
    refine ⟨high, b, hhigh, hb, hle, ?_⟩
    rcases hcopies s a hcopy with hmaps | hmem | hbelow
    · exact .inl hmaps.insertMappings
    · exact .inl (hrecordable.maps hmem)
    · refine horigin.imp ImportMap.Maps.insertMappings fun habove => ⟨habove.1, fun row hrow => ?_⟩
      rcases ImportMap.mem_of_mem_insertMappings hrow with hrow | hrow
      · exact habove.2 row hrow
      · exact hbelow _ hrow
  · simp only [ImportRecord.recordReconciledMappings, hr.counted]
    exact (ImportMap.count_insertMappings pending).symm
  · obtain ⟨high, hhigh, hmapped⟩ := hr.transferred h
    exact ⟨high, hhigh, fun m hm himportable hle => (hmapped m hm himportable hle).insertMappings⟩

/-- A chunk of the scan is recorded. -/
theorem Sound.flush (hw : w.Sound) {r : ImportRecord} (hr : w.record = some r) {c : TransferCall}
    {cursor : ℕ} {pending : List (ℕ × ℕ)} (hsame : SameSnapshot r c.job)
    (hs : w.Scanned r cursor pending) :
    Sound ({ w with record := some (r.recordReconciledMappings pending) }.goTo c
      (.scanning cursor [])) := by
  refine hw.commit ((hw.recorded r hr).reconciled hs.recordable fun s a hcopy => ?_)
    fun c' hc' => ?_
  · by_cases hle : a ≤ cursor
    · exact (hs.behind s a hcopy hle).imp_right .inl
    · exact .inr (.inr fun p hp => (hs.bounded p hp).trans_lt (Nat.lt_of_not_le hle))
  · obtain rfl := Option.some.inj hc'
    refine ⟨hsame, fun s a hcopy hle => ?_, fun row hrow => ?_, fun _ h => (by cases h), .nil⟩
    · rcases hs.behind s a hcopy hle with hmaps | hmem
      · exact .inl hmaps.insertMappings
      · exact .inl (hs.recordable.maps hmem)
    · rcases ImportMap.mem_of_mem_insertMappings hrow with hrow | hrow
      · exact hs.rows row hrow
      · exact hs.bounded _ hrow

/-- The last chunk of the scan is recorded: everything in the archive is mapped. -/
theorem Sound.settle (hw : w.Sound) {r : ImportRecord} (hr : w.record = some r) {c : TransferCall}
    {pending : List (ℕ × ℕ)} (hhigh : r.job.sourceHighWatermarkId.isSome)
    (hrecordable : w.Recordable r pending)
    (hall : ∀ s a, w.Copies s a → r.map.Maps s ∨ (s, a) ∈ pending) :
    Sound ({ w with record := some (r.recordReconciledMappings pending) }.goTo c .running) := by
  refine hw.commit ((hw.recorded r hr).reconciled hrecordable fun s a hcopy =>
    (hall s a hcopy).imp_right .inl) fun c' hc' => ?_
  obtain rfl := Option.some.inj hc'
  refine ⟨hhigh, fun s a hcopy => ?_⟩
  rcases hall s a hcopy with hmaps | hmem
  · exact hmaps.insertMappings
  · exact hrecordable.maps hmem

/-! ### The batches -/

/-- The messages a transfer reads are those beyond the checkpoint. -/
theorem remaining_sourceMessages {r : ImportRecord}
    (hhigh : r.job.sourceHighWatermarkId.isSome) :
    w.Remaining r (w.sourceMessages r.job.lastCopiedSourceMessageId
      (r.job.sourceHighWatermarkId.getD 0)) := by
  obtain ⟨high, hhigh⟩ := Option.isSome_iff_exists.1 hhigh
  rw [hhigh, Option.getD_some]
  have hmem : ∀ {m}, m ∈ w.sourceMessages r.job.lastCopiedSourceMessageId high ↔
      m ∈ w.history ∧ r.job.lastCopiedSourceMessageId < m.id ∧ m.id ≤ high := by
    intro m
    unfold sourceMessages
    rw [List.mem_filter, Bool.and_eq_true, decide_eq_true_eq, decide_eq_true_eq]
    exact Iff.rfl
  refine ⟨w.history.ordered.sublist List.filter_sublist, fun m hm => (hmem.1 hm).2.1,
    fun m hm => ⟨high, hhigh, (hmem.1 hm).2.2⟩, fun m hm hlt hle => ?_⟩
  exact hmem.2 ⟨hm, hlt, hle high hhigh⟩

theorem Sound.run (hw : w.Sound) {r : ImportRecord} (hr : w.record = some r) {c : TransferCall}
    (hphase : c.phase = .running) (hhigh : r.job.sourceHighWatermarkId.isSome)
    (hall : w.AllMapped r) (now : Instant) : (w.advanceOpened c r now).Sound := by
  unfold TransferWorld.advanceOpened
  simp only [hphase]
  split
  · next job hjob =>
      obtain rfl := ImportJob.map_transition_eq hjob
      refine hw.commit ((hw.recorded r hr).of_job rfl rfl rfl rfl fun h => (by cases h))
        fun c' hc' => ?_
      obtain rfl := Option.some.inj hc'
      exact ⟨hhigh, hall, remaining_sourceMessages hhigh⟩
  · exact hw.stop

theorem Sound.nextBatch (hw : w.Sound) {r : ImportRecord} (hr : w.record = some r)
    {c : TransferCall} {rest : List TelegramMessage} (hhigh : r.job.sourceHighWatermarkId.isSome)
    (hall : w.AllMapped r) (hrest : w.Remaining r rest) : (w.nextBatch c r rest).Sound := by
  have hsplit : rest.take c.batchSize ++ rest.drop c.batchSize = rest :=
    List.take_append_drop _ _
  unfold TransferWorld.nextBatch
  split
  · next hnil =>
      -- the source is exhausted
      have hempty : rest = [] := by
        have hsize := c.sized.1
        rcases List.take_eq_nil_iff.1 hnil with hzero | hempty
        · omega
        · exact hempty
      refine hw.goTo hr ⟨hhigh, fun m hm hle => ?_⟩
      by_contra hlt
      have hmem := hrest.complete m hm (Nat.lt_of_not_le hlt) hle
      rw [hempty] at hmem
      cases hmem
  · next hne =>
      split
      · exact hw.goTo hr trivial
      · dsimp only
        rw [← hsplit] at hrest
        generalize rest.take c.batchSize = batch at hrest hne ⊢
        have hbatch : ∀ m, m ∈ batch → isImportable (some m) →
            r.map.Maps m.id ∨ m ∈ (batch.filter fun m => isImportable (some m)).filter fun m =>
              !(r.map.mappedSourceIds ((batch.filter fun m => isImportable (some m)).map
                TelegramMessage.id)).contains m.id := by
          intro m hm himportable
          by_cases hmaps : r.map.Maps m.id
          · exact .inl hmaps
          · refine .inr (List.mem_filter.2 ⟨List.mem_filter.2 ⟨hm, himportable⟩, ?_⟩)
            simp [ImportMap.mem_mappedSourceIds, hmaps]
        split
        · next hnothing =>
            refine hw.goTo hr ⟨hhigh, hrest, hne, .nil, fun m hm himportable => ?_,
              fun s a hcopy => .inl (hall s a hcopy)⟩
            rw [hnothing] at hbatch
            exact .inl ((hbatch m hm himportable).resolve_right (by simp))
        · refine hw.goTo hr ⟨hhigh, hall, hrest, hne, fun m hm => ?_, hbatch⟩
          obtain ⟨hm, hunmapped⟩ := List.mem_filter.1 hm
          refine ⟨(List.mem_filter.1 hm).1, fun hmaps => ?_⟩
          have hmapped := List.contains_iff_mem.2
            (ImportMap.mem_mappedSourceIds.2 ⟨List.mem_map_of_mem hm, hmaps⟩)
          rw [hmapped] at hunmapped
          cases hunmapped

/-- The last message of a batch is beyond the others, and below the rest. -/
theorem Remaining.getLast {r : ImportRecord} {batch rest : List TelegramMessage}
    (hrest : w.Remaining r (batch ++ rest)) {last : TelegramMessage}
    (hlast : batch.getLast? = some last) :
    last ∈ batch ∧ (∀ m ∈ batch, m.id ≤ last.id) ∧ ∀ m ∈ rest, last.id < m.id := by
  have hmem := List.mem_of_getLast? hlast
  obtain ⟨hbatch, -, hbelow⟩ := List.pairwise_append.1 hrest.ordered
  refine ⟨hmem, fun m hm => ?_, hbelow last hmem⟩
  obtain ⟨before, rfl⟩ := List.getLast?_eq_some_iff.1 hlast
  rcases List.mem_append.1 hm with hm | hm
  · exact ((List.pairwise_append.1 hbatch).2.2 m hm last List.mem_cons_self).le
  · rw [List.mem_singleton.1 hm]

/-- A batch is recorded: everything in the archive is mapped again, and the checkpoint moves to the
end of the batch. -/
theorem Sound.recordBatch (hw : w.Sound) {r : ImportRecord} (hr : w.record = some r)
    {c : TransferCall} {batch rest : List TelegramMessage} {forwardedMappings : List (ℕ × ℕ)}
    (hhigh : r.job.sourceHighWatermarkId.isSome) (hrest : w.Remaining r (batch ++ rest))
    (hrecordable : w.Recordable r forwardedMappings)
    (hbatch : ∀ m ∈ batch, isImportable (some m) →
      r.map.Maps m.id ∨ ∃ p ∈ forwardedMappings, p.1 = m.id)
    (hcopies : ∀ s a, w.Copies s a → r.map.Maps s ∨ ∃ p ∈ forwardedMappings, p.1 = s) :
    (w.recordBatch c r batch forwardedMappings rest).Sound := by
  unfold TransferWorld.recordBatch
  split
  · exact hw.stop
  · next last hlast =>
      obtain ⟨hmem, hbelow, habove⟩ := hrest.getLast hlast
      have hlt : r.job.lastCopiedSourceMessageId < last.id :=
        hrest.beyond last (List.mem_append_left _ hmem)
      have hr' := hw.recorded r hr
      have hmaps : ∀ {s}, (r.map.Maps s ∨ ∃ p ∈ forwardedMappings, p.1 = s) →
          (r.map.insertMappings forwardedMappings).1.Maps s := by
        rintro s (hmaps | ⟨p, hp, rfl⟩)
        · exact hmaps.insertMappings
        · exact hrecordable.maps hp
      simp only [ImportRecord.recordTransferBatch, Nat.not_le.2 hlt, if_false]
      refine hw.commit ?_ fun c' hc' => ?_
      · refine ⟨fun row hrow => ?_, hr'.baseline, hr'.measured, fun s a hcopy => ?_, ?_,
          fun m hm himportable hle => ?_, fun h => ?_⟩
        · rcases ImportMap.mem_of_mem_insertMappings hrow with hrow | hrow
          · exact hr'.posted row hrow
          · exact hrecordable.posted _ hrow
        · obtain ⟨high, b, hhigh, hb, hle, -⟩ := hr'.origin s a hcopy
          exact ⟨high, b, hhigh, hb, hle, .inl (hmaps (hcopies s a hcopy))⟩
        · simp only [hr'.counted]
          exact (ImportMap.count_insertMappings forwardedMappings).symm
        · -- a message up to the end of the batch is below the old checkpoint or in the batch
          dsimp only at hle
          by_cases hold : m.id ≤ r.job.lastCopiedSourceMessageId
          · exact (hr'.covered m hm himportable hold).insertMappings
          · obtain ⟨high, hsome, hlast_le⟩ := hrest.high last (List.mem_append_left _ hmem)
            have hmem' := hrest.complete m hm (Nat.lt_of_not_le hold) fun high' hhigh' => by
              obtain rfl := Option.some.inj (hsome.symm.trans hhigh')
              omega
            rcases List.mem_append.1 hmem' with hm' | hm'
            · exact hmaps (hbatch m hm' himportable)
            · have hbeyond := habove m hm'
              omega
        · obtain ⟨high, hsome, hmapped⟩ := hr'.transferred h
          exact ⟨high, hsome, fun m hm himportable hle =>
            (hmapped m hm himportable hle).insertMappings⟩
      · obtain rfl := Option.some.inj hc'
        refine ⟨hhigh, fun s a hcopy => hmaps (hcopies s a hcopy), ?_, habove,
          fun m hm => hrest.high m (List.mem_append_right _ hm), fun m hm hbeyond hle => ?_⟩
        · exact (List.pairwise_append.1 hrest.ordered).2.1
        · dsimp only at hbeyond
          rcases List.mem_append.1 (hrest.complete m hm (hlt.trans hbeyond) hle) with hm' | hm'
          · have hle' := hbelow m hm'
            omega
          · exact hm'

/-- The job is transferred: the checkpoint has reached the high watermark. -/
theorem Sound.finish (hw : w.Sound) {r : ImportRecord} (hr : w.record = some r) {c : TransferCall}
    (hphase : c.phase = .finishing) (hhigh : r.job.sourceHighWatermarkId.isSome)
    (hend : ∀ m ∈ w.history, (∀ high, r.job.sourceHighWatermarkId = some high → m.id ≤ high) →
      m.id ≤ r.job.lastCopiedSourceMessageId) (now : Instant) :
    (w.advanceOpened c r now).Sound := by
  unfold TransferWorld.advanceOpened
  simp only [hphase]
  split
  · next job hjob =>
      obtain rfl := ImportJob.map_transition_eq hjob
      obtain ⟨high, hhigh⟩ := Option.isSome_iff_exists.1 hhigh
      refine hw.commit ((hw.recorded r hr).of_job rfl rfl rfl rfl fun _ => ?_)
        fun _ h => (by cases h)
      refine ⟨high, hhigh, fun m hm himportable hle =>
        (hw.recorded r hr).covered m hm himportable ?_⟩
      refine hend m hm fun high' hhigh' => ?_
      obtain rfl := Option.some.inj (hhigh.symm.trans hhigh')
      exact hle
  · exact hw.stop

theorem Sound.recordFailure (hw : w.Sound) {r : ImportRecord} (hr : w.record = some r)
    {failure : ImportFailure} : (w.recordFailure r failure).Sound := by
  have hrecorded := hw.recorded r hr
  have hmark : ∀ {target : ImportStatus} {error : Str} {job' : ImportJob},
      (r.job.transition target).map (fun job => { job with lastError := some error }) = .ok job' →
        target ≠ .transferred →
          Sound { w with record := some { r with job := job' } }.stop := by
    intro target error job' h htarget
    obtain rfl := ImportJob.map_transition_eq h
    exact hw.commit (hrecorded.of_job rfl rfl rfl rfl fun h => absurd h htarget)
      fun _ h => (by cases h)
  unfold TransferWorld.recordFailure
  cases failure with
  | channelAccess text =>
      dsimp only
      split
      · next job h => exact hmark h (by simp)
      · exact hw.stop
  | other text => exact hw.commit hrecorded fun _ h => (by cases h)
  | _ =>
      dsimp only
      split
      · next job h => exact hmark h (by simp)
      · exact hw.stop

/-! ### Forwarding a batch -/

/-- The archive after Telegram has made the copies of a request. -/
def accept (w : TransferWorld) (accepted : List TelegramMessage) : TransferWorld :=
  { w with archive := accepted.foldl KeyedTable.insert w.archive, call := none }

theorem Accepts.mem_archive {toForward : List TelegramMessage} {request : ForwardRequest}
    (h : w.Accepts toForward request) {m : TelegramMessage} :
    m ∈ (w.accept request.accepted).archive ↔ m ∈ w.archive ∨ m ∈ request.accepted :=
  mem_foldl_insert h.ascending h.fresh

/-- The copies a request makes lie above everything in the archive. -/
theorem Accepts.copies {toForward : List TelegramMessage} {request : ForwardRequest}
    (h : w.Accepts toForward request) {s a : ℕ} (hcopy : (w.accept request.accepted).Copies s a) :
    w.Copies s a ∨ ∃ m ∈ request.accepted, m.id = a ∧ w.source? m = some s := by
  obtain ⟨m, hm, hid, hsource⟩ := hcopy
  rcases h.mem_archive.1 hm with hm | hm
  · exact .inl ⟨m, hm, hid, hsource⟩
  · exact .inr ⟨m, hm, hid, hsource⟩

theorem Accepts.posts {toForward : List TelegramMessage} {request : ForwardRequest}
    (h : w.Accepts toForward request) {a : ℕ} (hpost : w.Posts a) :
    (w.accept request.accepted).Posts a := by
  obtain ⟨m, hm, hid⟩ := hpost
  exact ⟨m, h.mem_archive.2 (.inl hm), hid⟩

theorem Posts.lt_accepted {toForward : List TelegramMessage} {request : ForwardRequest} {a : ℕ}
    (hpost : w.Posts a) (h : w.Accepts toForward request) {m : TelegramMessage}
    (hm : m ∈ request.accepted) : a < m.id := by
  obtain ⟨m', hm', rfl⟩ := hpost
  exact h.fresh m hm m' hm'

/-- The copies of a request are those of messages without a mapping, and they lie above the place
where a later scan starts. -/
theorem Sound.accept (hw : w.Sound) {r : ImportRecord} (hr : w.record = some r)
    {toForward batch rest : List TelegramMessage} {request : ForwardRequest}
    (haccepts : w.Accepts toForward request) (hall : w.AllMapped r)
    (hrest : w.Remaining r (batch ++ rest)) (hmeasured : r.job.sourceHighWatermarkId.isSome)
    (htoForward : ∀ m ∈ toForward, m ∈ batch ∧ ¬ r.map.Maps m.id) :
    (w.accept request.accepted).Sound := by
  have hrecorded := hw.recorded r hr
  refine ⟨fun s a b ha hb => ?_, fun h => ?_, fun r' hr' => ?_, fun _ h => (by cases h)⟩
  · -- a message that is forwarded now had no copy before
    have hnew : ∀ m ∈ request.accepted, w.source? m = some s → ∀ a, ¬ w.Copies s a := by
      intro m hm hsource a hcopy
      obtain ⟨x, hx, hsource'⟩ := haccepts.headers m hm
      obtain rfl := Option.some.inj (hsource.symm.trans hsource')
      exact (htoForward x hx).2 (hall x.id a hcopy)
    rcases haccepts.copies ha with ha | ⟨m, hm, rfl, hsource⟩ <;>
      rcases haccepts.copies hb with hb | ⟨m', hm', rfl, hsource'⟩
    · exact hw.once s a b ha hb
    · exact absurd ha (hnew m' hm' hsource' a)
    · exact absurd hb (hnew m hm hsource b)
    · rw [haccepts.distinct m hm m' hm' (hsource.trans hsource'.symm)]
  · exact absurd (hr.symm.trans h) (by simp)
  · obtain rfl := Option.some.inj (hr.symm.trans hr')
    refine ⟨fun row hrow => haccepts.posts (hrecorded.posted row hrow),
      fun b hb => (hrecorded.baseline b hb).imp_right haccepts.posts, hrecorded.measured,
      fun s a hcopy => ?_, hrecorded.counted, hrecorded.covered, hrecorded.transferred⟩
    rcases haccepts.copies hcopy with hcopy | ⟨m, hm, rfl, hsource⟩
    · exact hrecorded.origin s a hcopy
    · obtain ⟨x, hx, hsource'⟩ := haccepts.headers m hm
      obtain rfl := Option.some.inj (hsource.symm.trans hsource')
      obtain ⟨high, hhigh, hle⟩ := hrest.high x (List.mem_append_left _ (htoForward x hx).1)
      obtain ⟨b, hb⟩ := Option.isSome_iff_exists.1 (hrecorded.measured hmeasured)
      refine ⟨high, b, hhigh, hb, hle, .inr ⟨?_, fun row hrow =>
        (hrecorded.posted row hrow).lt_accepted haccepts hm⟩⟩
      rcases hrecorded.baseline b hb with rfl | hpost
      · exact haccepts.positive m hm
      · exact hpost.lt_accepted haccepts hm

/-- A list without `none`. -/
theorem exists_map_some {α : Type} {l : List (Option α)} (h : l.any Option.isNone = false) :
    ∃ l' : List α, l = l'.map some := by
  induction l with
  | nil => exact ⟨[], rfl⟩
  | cons x l ih =>
      rw [List.any_cons, Bool.or_eq_false_iff] at h
      obtain ⟨l', rfl⟩ := ih h.2
      cases x with
      | none => cases h.1
      | some x => exact ⟨x :: l', rfl⟩

/-- The reply to a request is a complete batch in order, or the call fails. -/
theorem Sound.takeForwarded (hw : w.Sound) {r : ImportRecord} (hr : w.record = some r)
    {c : TransferCall} {toForward batch rest : List TelegramMessage} {request : ForwardRequest}
    {forwarded : List (Option TelegramMessage)} (haccepts : w.Accepts toForward request)
    (hreply : request.reply = .messages forwarded) (hhigh : r.job.sourceHighWatermarkId.isSome)
    (hall : w.AllMapped r) (hrest : w.Remaining r (batch ++ rest)) (hne : batch ≠ [])
    (hbatch : ∀ m ∈ batch, isImportable (some m) → r.map.Maps m.id ∨ m ∈ toForward)
    (hw' : (w.accept request.accepted).Sound) :
    ((w.accept request.accepted).takeForwarded c batch toForward rest forwarded).Sound := by
  have hr' : (w.accept request.accepted).record = some r := hr
  unfold TransferWorld.takeForwarded
  split
  · exact hw'.goTo hr' trivial
  · next hcomplete =>
      simp only [ne_eq, Bool.or_eq_true, decide_eq_true_eq, not_or, Decidable.not_not,
        Bool.not_eq_true] at hcomplete
      obtain ⟨hlength, hcomplete⟩ := hcomplete
      obtain ⟨copies, rfl⟩ := exists_map_some hcomplete
      have hcopies : (copies.map some).filterMap id = copies := by simp
      dsimp only
      rw [hcopies]
      rw [List.length_map] at hlength
      split
      · exact hw'.goTo hr' trivial
      · next hincreasing =>
          have hascending : (copies.map TelegramMessage.id).Pairwise (· < ·) :=
            pairwise_of_isStrictlyIncreasing (by simpa using hincreasing)
          have hfst : ((toForward.map TelegramMessage.id).zip (copies.map TelegramMessage.id)).map
              Prod.fst = toForward.map TelegramMessage.id :=
            List.map_fst_zip (by simp [hlength])
          have hsnd : ((toForward.map TelegramMessage.id).zip (copies.map TelegramMessage.id)).map
              Prod.snd = copies.map TelegramMessage.id :=
            List.map_snd_zip (by simp [hlength])
          -- from here on the mappings are known by their two columns
          generalize (toForward.map TelegramMessage.id).zip (copies.map TelegramMessage.id) =
            mappings at hfst hsnd ⊢
          have hmapping : ∀ x ∈ toForward, ∃ p ∈ mappings, p.1 = x.id := by
            intro x hx
            have hmem := List.mem_map_of_mem (f := TelegramMessage.id) hx
            rw [← hfst] at hmem
            exact List.mem_map.1 hmem
          -- what Telegram replied with is in the archive
          have hcopy : ∀ p ∈ mappings, ∃ m ∈ request.accepted, m.id = p.2 := by
            intro p hp
            have hmem := List.mem_map_of_mem (f := Prod.snd) hp
            rw [hsnd] at hmem
            obtain ⟨m, hm, hid⟩ := List.mem_map.1 hmem
            exact ⟨m, haccepts.replied _ hreply m (List.mem_map_of_mem hm), hid⟩
          refine hw'.goTo hr' ⟨hhigh, hrest.of_history rfl, hne, ⟨?_, fun p hp => ?_,
            fun p hp row hrow => ?_⟩, fun m hm himportable => ?_, fun s a ha => ?_⟩
          · rw [← hsnd, List.pairwise_map] at hascending
            exact hascending
          · obtain ⟨m, hm, hid⟩ := hcopy p hp
            exact ⟨m, haccepts.mem_archive.2 (.inr hm), hid⟩
          · obtain ⟨m, hm, hid⟩ := hcopy p hp
            rw [← hid]
            exact ((hw.recorded r hr).posted row hrow).lt_accepted haccepts hm
          · exact (hbatch m hm himportable).imp_right (hmapping m)
          · -- a copy is an old one, or one of this request and then in the mappings
            rcases haccepts.copies ha with ha | ⟨m, hm, rfl, hsource⟩
            · exact .inl (hall s a ha)
            · obtain ⟨x, hx, hsource'⟩ := haccepts.headers m hm
              obtain rfl := Option.some.inj (hsource.symm.trans hsource')
              exact .inr (hmapping x hx)

/-- A request to forward a batch is answered. -/
theorem Sound.forward (hw : w.Sound) {request : ForwardRequest}
    (hfaithful : w.Faithful (.forward request)) : (w.forward request).Sound := by
  unfold TransferWorld.forward
  split
  · exact hw
  · next c hcall =>
      split
      · next batch toForward rest floodRetries hphase =>
          have haccepts := hfaithful c batch toForward rest floodRetries hcall hphase
          obtain ⟨r, hr, hstands⟩ := (hw.call c hcall).resolve_left (by rw [hphase]; simp)
          simp only [Stands, hphase] at hstands
          obtain ⟨hhigh, hall, hrest, hne, htoForward, hbatch⟩ := hstands
          have hw' := hw.accept hr haccepts hall hrest hhigh htoForward
          have hr' : (w.accept request.accepted).record = some r := hr
          dsimp only
          split
          · next forwarded houtcome =>
              have hreply := ForwardReply.outcome_eq_returned houtcome
              exact hw.takeForwarded hr haccepts hreply hhigh hall hrest hne hbatch hw'
          · exact hw'.goTo hr' trivial
          · next retries houtcome =>
              -- only a flood wait repeats the request, and it has refused it
              obtain ⟨seconds, hreply⟩ := ForwardReply.outcome_eq_retry houtcome
              have hrefused := haccepts.refused seconds hreply
              have hsame : w.SameCopies (w.accept request.accepted) := by
                rw [hrefused]
                exact .of_archive w.record none
              refine hw'.goTo hr' ⟨hhigh, hall.of_sameCopies hsame, hrest.of_history rfl, hne,
                htoForward, hbatch⟩
      · exact hw

/-! ### The steps -/

theorem Sound.advanceOpened (hw : w.Sound) {r : ImportRecord} (hr : w.record = some r)
    {c : TransferCall} (hstands : w.Stands r c) (now : Instant) :
    (w.advanceOpened c r now).Sound := by
  have hrecorded := hw.recorded r hr
  cases hphase : c.phase with
  | opening | forwarding =>
      simp only [TransferWorld.advanceOpened, hphase]
      exact hw
  | measuring =>
      simp only [TransferWorld.advanceOpened, hphase]
      exact hw.goTo hr w.posts_latestMessageId
  -- the watermark and the baseline are written once and kept by later calls
  | initializing sourceHigh archiveBaseline total =>
      simp only [Stands, hphase] at hstands
      simp only [TransferWorld.advanceOpened, hphase]
      refine hw.commit (hrecorded.initializeSnapshot hstands) fun c' hc' => ?_
      obtain rfl := Option.some.inj hc'
      exact ⟨rfl, rfl, isSome_initializeSnapshot⟩
  | seeking =>
      simp only [Stands, hphase] at hstands
      simp only [TransferWorld.advanceOpened, hphase]
      exact hw.goTo hr ⟨hstands, hrecorded.scanned hstands⟩
  | scanning cursor pending =>
      simp only [Stands, hphase] at hstands
      simp only [TransferWorld.advanceOpened, hphase]
      exact hw.scan hr hstands.1 hstands.2
  | flushing cursor pending =>
      simp only [Stands, hphase] at hstands
      simp only [TransferWorld.advanceOpened, hphase]
      exact hw.flush hr hstands.1 hstands.2
  | settling pending =>
      simp only [Stands, hphase] at hstands
      simp only [TransferWorld.advanceOpened, hphase]
      exact hw.settle hr hstands.1 hstands.2.1 hstands.2.2
  | running =>
      simp only [Stands, hphase] at hstands
      exact hw.run hr hphase hstands.1 hstands.2 now
  | batching rest =>
      simp only [Stands, hphase] at hstands
      simp only [TransferWorld.advanceOpened, hphase]
      exact hw.nextBatch hr hstands.1 hstands.2.1 hstands.2.2
  -- the batch is recorded with the copies that Telegram has answered with
  | recording batch forwardedMappings rest =>
      simp only [Stands, hphase] at hstands
      obtain ⟨hhigh, hrest, -, hrecordable, hbatch, hcopies⟩ := hstands
      simp only [TransferWorld.advanceOpened, hphase]
      exact hw.recordBatch hr hhigh hrest hrecordable hbatch hcopies
  | finishing =>
      simp only [Stands, hphase] at hstands
      exact hw.finish hr hphase hstands.1 hstands.2 now
  | failing failure =>
      simp only [TransferWorld.advanceOpened, hphase]
      exact hw.recordFailure hr

theorem Sound.advance (hw : w.Sound) (now : Instant) : (w.advance now).Sound := by
  unfold TransferWorld.advance
  split
  · exact hw
  · next c hcall =>
      split
      · exact hw.openJob
      · next r hr hphase =>
          obtain ⟨r', hr', hstands⟩ := (hw.call c hcall).resolve_left fun h => by
            revert h hphase
            cases c.phase <;> simp
          obtain rfl := Option.some.inj (hr.symm.trans hr')
          exact hw.advanceOpened hr hstands now
      · exact hw.stop

/-- **Every step keeps the invariant.** -/
theorem Sound.step (hw : w.Sound) {event : TransferEvent} (hfaithful : w.Faithful event) :
    (w.step event).Sound := by
  cases event with
  | start batchSize floodWaitLimit resolved =>
      simp only [TransferWorld.step, TransferWorld.startCall]
      split
      · exact hw
      · split
        · refine ⟨hw.once, hw.unopened, fun r hr => ?_, fun c hc => .inl ?_⟩
          · exact (hw.recorded r hr).of_sameCopies (.of_archive w.record _)
          · obtain rfl := Option.some.inj hc
            rfl
        · exact hw
  | advance now => exact hw.advance now
  | forward request => exact hw.forward hfaithful
  | raised failure =>
      simp only [TransferWorld.step, TransferWorld.raise]
      split
      · exact hw
      · next c hcall =>
          split
          · next rest hphase =>
              obtain ⟨r, hr, -⟩ := (hw.call c hcall).resolve_left (by rw [hphase]; simp)
              exact hw.goTo hr trivial
          · exact hw.stop
  | posted message =>
      -- a message posted by somebody else is no copy, so the copies stay the same
      obtain ⟨hnocopy, hlast⟩ := hfaithful
      have hmem : ∀ {m}, m ∈ w.archive.insert message ↔ m = message ∨ m ∈ w.archive :=
        mem_insert_archive hlast
      refine hw.of_sameCopies ⟨rfl, fun s a => ?_, fun a => ?_⟩ rfl rfl
      · constructor
        · rintro ⟨m, hm, hid, hsource⟩
          rcases hmem.1 hm with rfl | hm
          · cases hnocopy.symm.trans hsource
          · exact ⟨m, hm, hid, hsource⟩
        · rintro ⟨m, hm, hid, hsource⟩
          exact ⟨m, hmem.2 (.inr hm), hid, hsource⟩
      · rintro ⟨m, hm, hid⟩
        exact ⟨m, hmem.2 (.inr hm), hid⟩
  | crash => exact hw.stop

/-! ### The checkpoint -/

/-- The job is kept, and its checkpoint does not decrease. -/
def Advances (w w' : TransferWorld) : Prop :=
  ∀ r, w.record = some r → ∃ r', w'.record = some r' ∧
    r.job.lastCopiedSourceMessageId ≤ r'.job.lastCopiedSourceMessageId

theorem Advances.refl (w : TransferWorld) : w.Advances w := fun r hr => ⟨r, hr, le_rfl⟩

theorem Advances.trans {w'' : TransferWorld} (h : w.Advances w') (h' : w'.Advances w'') :
    w.Advances w'' := by
  intro r hr
  obtain ⟨r', hr', hle⟩ := h r hr
  obtain ⟨r'', hr'', hle'⟩ := h' r' hr'
  exact ⟨r'', hr'', hle.trans hle'⟩

theorem Advances.of_record (h : w'.record = w.record) : w.Advances w' :=
  fun r hr => ⟨r, h.trans hr, le_rfl⟩

theorem Advances.of_commit {r r' : ImportRecord} (hr : w.record = some r)
    (hr' : w'.record = some r')
    (hle : r.job.lastCopiedSourceMessageId ≤ r'.job.lastCopiedSourceMessageId) : w.Advances w' := by
  intro r'' hr''
  obtain rfl := Option.some.inj (hr.symm.trans hr'')
  exact ⟨r', hr', hle⟩

/-- A transition of the status leaves the checkpoint. -/
theorem advances_transition {r : ImportRecord} (hr : w.record = some r) {target : ImportStatus}
    {f : ImportJob → ImportJob} {job : ImportJob} (h : (r.job.transition target).map f = .ok job)
    (hf : ∀ job, (f job).lastCopiedSourceMessageId = job.lastCopiedSourceMessageId)
    (hw' : w'.record = some { r with job }) : w.Advances w' := by
  obtain rfl := ImportJob.map_transition_eq h
  have hle := (hf { r.job with status := target }).ge
  exact .of_commit hr hw' hle

theorem advances_openJob {c : TransferCall} : w.Advances (w.openJob c) := by
  intro r hr
  refine ⟨r, ?_, le_rfl⟩
  unfold openJob
  rw [hr]
  dsimp only [Option.getD_some]
  split <;> rfl

theorem advances_scan {c : TransferCall} {cursor : ℕ} {pending : List (ℕ × ℕ)} :
    w.Advances (w.scan c cursor pending) := by
  refine .of_record ?_
  unfold scan
  split
  · rfl
  · split
    · rfl
    · dsimp only
      split_ifs <;> rfl

theorem advances_nextBatch {c : TransferCall} {r : ImportRecord} {rest : List TelegramMessage} :
    w.Advances (w.nextBatch c r rest) := by
  refine .of_record ?_
  unfold nextBatch
  split
  · rfl
  · dsimp only
    split_ifs <;> rfl

/-- A batch moves the checkpoint only forward. -/
theorem advances_recordBatch {c : TransferCall} {r : ImportRecord} (hr : w.record = some r)
    {batch rest : List TelegramMessage} {forwardedMappings : List (ℕ × ℕ)} :
    w.Advances (w.recordBatch c r batch forwardedMappings rest) := by
  unfold recordBatch
  split
  · exact .of_record rfl
  · refine .of_commit hr rfl ?_
    simp only [ImportRecord.recordTransferBatch]
    split
    · exact le_rfl
    · next h => exact (Nat.lt_of_not_le h).le

theorem advances_recordFailure {r : ImportRecord} (hr : w.record = some r)
    {failure : ImportFailure} : w.Advances (w.recordFailure r failure) := by
  unfold recordFailure
  cases failure with
  | other text => exact .of_commit hr rfl le_rfl
  | _ =>
      dsimp only
      split
      · next h => exact advances_transition hr h (fun _ => rfl) rfl
      · exact .of_record rfl

theorem advances_advanceOpened {c : TransferCall} {r : ImportRecord} (hr : w.record = some r)
    (now : Instant) : w.Advances (w.advanceOpened c r now) := by
  unfold advanceOpened
  split
  · exact .refl w
  · exact .refl w
  · exact .of_record rfl
  · refine .of_commit hr rfl ?_
    simp only [ImportJob.initializeSnapshot]
    split <;> exact le_rfl
  · exact .of_record rfl
  · exact advances_scan
  · exact .of_commit hr rfl le_rfl
  · exact .of_commit hr rfl le_rfl
  · split
    · next h => exact advances_transition hr h (fun _ => rfl) rfl
    · exact .of_record rfl
  · exact advances_nextBatch
  · exact advances_recordBatch hr
  · split
    · next h => exact advances_transition hr h (fun _ => rfl) rfl
    · exact .of_record rfl
  · exact advances_recordFailure hr

/-- No step loses the job or moves its checkpoint back. -/
theorem advances_step (w : TransferWorld) (event : TransferEvent) : w.Advances (w.step event) := by
  cases event with
  | start batchSize floodWaitLimit resolved =>
      refine .of_record ?_
      simp only [step, startCall]
      split_ifs <;> rfl
  | advance now =>
      simp only [step, advance]
      split
      · exact .refl w
      · split
        · exact advances_openJob
        · next r hr _ => exact advances_advanceOpened hr now
        · exact .of_record rfl
  | forward request =>
      refine .of_record ?_
      simp only [step, forward]
      split
      · rfl
      · split
        · split
          · unfold takeForwarded
            dsimp only
            split_ifs <;> rfl
          · rfl
          · rfl
        · rfl
  | raised failure =>
      refine .of_record ?_
      simp only [step, raise]
      split
      · rfl
      · split <;> rfl
  | posted message => exact .of_record rfl
  | crash => exact .of_record rfl

/-! ### Runs -/

/-- The channels before the first call. -/
def initial (sourceChannelId : ℤ) (history archive : Channel) : TransferWorld :=
  { sourceChannelId, history, archive }

/-- What a transfer guarantees in a state: no source message has two copies; the mapping is
injective both ways and counted; the importable messages up to the checkpoint are mapped, and all
those up to the high watermark once the job is transferred. -/
structure ExactlyOnce (w : TransferWorld) : Prop where
  once : ∀ m ∈ w.archive, ∀ m' ∈ w.archive, ∀ s,
    w.source? m = some s → w.source? m' = some s → m = m'
  sourceInjective : ∀ r, w.record = some r → ∀ row ∈ r.map.rows, ∀ row' ∈ r.map.rows,
    row.archiveMessageId = row'.archiveMessageId → row.sourceMessageId = row'.sourceMessageId
  archiveInjective : ∀ r, w.record = some r → ∀ row ∈ r.map.rows, ∀ row' ∈ r.map.rows,
    row.sourceMessageId = row'.sourceMessageId → row.archiveMessageId = row'.archiveMessageId
  counted : ∀ r, w.record = some r → r.job.copiedMessages = r.map.count
  covered : ∀ r, w.record = some r → ∀ m ∈ w.history, isImportable (some m) →
    m.id ≤ r.job.lastCopiedSourceMessageId → r.map.Maps m.id
  transferred : ∀ r, w.record = some r → r.job.status = .transferred →
    ∃ high, r.job.sourceHighWatermarkId = some high ∧
      ∀ m ∈ w.history, isImportable (some m) → m.id ≤ high → r.map.Maps m.id

theorem Sound.exactlyOnce (hw : w.Sound) : w.ExactlyOnce := by
  refine ⟨fun m hm m' hm' s hs hs' => ?_, fun r _ row hrow row' hrow' h => ?_,
    fun r _ row hrow row' hrow' h => ?_, fun r hr => (hw.recorded r hr).counted,
    fun r hr => (hw.recorded r hr).covered, fun r hr => (hw.recorded r hr).transferred⟩
  · have hid := hw.once s m.id m'.id ⟨m, hm, rfl, hs⟩ ⟨m', hm', rfl, hs'⟩
    exact w.archive.ext_key hm hm' hid
  · rw [r.map.archiveUnique row hrow row' hrow' h]
  · rw [r.map.rows.ext_key hrow hrow' h]

theorem sound_initial {sourceChannelId : ℤ} {history archive : Channel}
    (h : ∀ m ∈ archive, m.forwardedSourceMessageId? sourceChannelId = none) :
    (initial sourceChannelId history archive).Sound := by
  have hnone : ∀ s a, ¬ (initial sourceChannelId history archive).Copies s a := by
    rintro s a ⟨m, hm, -, hsource⟩
    cases (h m hm).symm.trans hsource
  exact ⟨fun s a _ ha => absurd ha (hnone s a), fun _ => hnone, fun _ h => (by cases h),
    fun _ h => (by cases h)⟩

/-- **A transfer forwards every message once.**  Along every run whose requests Telegram answers
faithfully, from an archive without copies, every state guarantees exactly one copy, and the
checkpoint of the job never decreases. -/
theorem transfer_exactly_once (sourceChannelId : ℤ) (history archive : Channel)
    (events : List TransferEvent)
    (hinitial : ∀ m ∈ archive, m.forwardedSourceMessageId? sourceChannelId = none)
    (hfaithful : Transition.Along step Faithful (initial sourceChannelId history archive) events) :
    Transition.Always step ExactlyOnce (initial sourceChannelId history archive) events ∧
      ∀ before later, before ++ later <+: events →
        (Transition.run step (initial sourceChannelId history archive) before).Advances
          (Transition.run step (initial sourceChannelId history archive) (before ++ later)) := by
  constructor
  · intro before hbefore
    have hsound := Transition.run_invariant_along (fun _ _ hw h => hw.step h)
      (sound_initial hinitial) (hfaithful.of_prefix hbefore)
    exact hsound.exactlyOnce
  · intro before later _
    rw [Transition.run_append]
    exact Transition.run_rel (I := fun _ => True) Advances.refl (fun _ _ _ h h' => h.trans h')
      (fun _ _ _ => trivial) (fun w event _ => advances_step w event) trivial later

/-- Two messages of a source. -/
def twoMessages : Channel :=
  (KeyedTable.empty.insert { id := 1, rawText := some "one".toList }).insert
    { id := 2, rawText := some "two".toList }

/-- Their copies in the archive. -/
def twoCopies : List TelegramMessage :=
  [{ id := 8, fwdFrom := some ⟨some 1, some (-100)⟩ },
    { id := 9, fwdFrom := some ⟨some 2, some (-100)⟩ }]

/-- A call up to its first request. -/
def firstCall : List TransferEvent :=
  [.start 100 60 true, .advance 0, .advance 0, .advance 0, .advance 0, .advance 0, .advance 0,
    .advance 0]

/-- Telegram copies both messages, and the process crashes before it records them. -/
def crashAfterForward : List TransferEvent :=
  firstCall ++ [.forward ⟨twoCopies, .messages (twoCopies.map some)⟩, .crash]

/-- A second call finds the copies and completes the transfer. -/
def recoveredTransfer : List TransferEvent :=
  crashAfterForward ++
    [.start 100 60 true, .advance 1, .advance 1, .advance 1, .advance 1, .advance 1, .advance 1,
      .advance 1, .advance 1, .advance 1, .advance 1, .advance 1]

/-- Telegram's answer to the first request is faithful. -/
theorem accepts_twoCopies :
    (Transition.run step (initial (-100) twoMessages .empty) firstCall).Faithful
      (.forward ⟨twoCopies, .messages (twoCopies.map some)⟩) := by
  intro c batch toForward rest floodRetries hcall hphase
  have hrequest : ((Transition.run step (initial (-100) twoMessages .empty) firstCall).call.map
      TransferCall.phase) = some (.forwarding twoMessages.rows twoMessages.rows [] 0) := rfl
  rw [hcall, Option.map_some, hphase] at hrequest
  cases hrequest
  refine ⟨by decide, by decide, fun _ _ _ h => (by cases h), by decide, by decide, ?_,
    fun _ h => (by cases h)⟩
  rintro copies hreply m hm
  cases hreply
  simpa using hm

theorem recoveredTransfer_exactly_once :
    (Transition.Always step ExactlyOnce (initial (-100) twoMessages .empty) recoveredTransfer ∧
      ∀ before later, before ++ later <+: recoveredTransfer →
        (Transition.run step (initial (-100) twoMessages .empty) before).Advances
          (Transition.run step (initial (-100) twoMessages .empty) (before ++ later))) ∧
      ((Transition.run step (initial (-100) twoMessages .empty) recoveredTransfer).record.map
        fun r => (r.job.status, r.map.count)) = some (.transferred, 2) := by
  refine ⟨transfer_exactly_once (-100) twoMessages .empty recoveredTransfer
    (fun _ h => (by cases h)) ?_, by decide +kernel⟩
  unfold recoveredTransfer crashAfterForward
  rw [Transition.along_append, Transition.along_append]
  refine ⟨⟨?_, accepts_twoCopies, trivial, trivial⟩, ?_⟩
  · simp [firstCall, Transition.along_cons, Faithful]
  · simp [Transition.along_cons, Faithful]

end TransferWorld
end CineGate
