/-
**A reindex catalogues what the parser reads.**

The mappings of an import name copies in the archive, and the reindex reconciles the copies in the
order of their source messages.  A pass can stop anywhere, a later one begins at the checkpoint or
at zero, and a copy may be reconciled many times.  As long as nobody edits the archive, the
catalogue is at every moment what the parser reads from the copies up to some source message; it is
what the parser reads from all of them once the job is completed.

* `copies` — the importable messages of the archive that the mappings name;
* `ReindexWorld.Reached` — the invariant: how far the catalogue has come, and what a pass relies on;
* `ReindexWorld.Reached.step` — every event keeps it, and the catalogue never falls back;
* `ReindexWorld.reindexed_eq_parsed` — the catalogue of a run.
-/

import CineGate.Reindex
import CineGate.ReplayedStream
import CineGate.Transfer

set_option relaxedAutoImplicit false
set_option autoImplicit false

namespace CineGate

/-! ### The copies -/

/-- The message that the indexer is given for an answer of Telegram. -/
def importedMessage (message : Option TelegramMessage) : Option ArchiveMessage :=
  match message with
  | none => none
  | some message =>
      if h : isImportable (some message) = true then
        some (message.toArchive (pos_of_isImportable h))
      else none

/-- The source messages and their copies, by source message. -/
def ImportMap.links (m : ImportMap) : List (ℕ × ℕ) :=
  m.rows.rows.map fun row => (row.sourceMessageId, row.archiveMessageId)

/-- The copies that the archive shows. -/
def copies (archive : Channel) (links : List (ℕ × ℕ)) : List ArchiveMessage :=
  links.filterMap fun link => importedMessage (archive.find? link.2)

/-- The copies of the source messages up to `reached`. -/
def copiesUpTo (archive : Channel) (links : List (ℕ × ℕ)) (reached : ℕ) : List ArchiveMessage :=
  copies archive (links.filter fun link => link.1 ≤ reached)

section

variable {archive : Channel} {links : List (ℕ × ℕ)} {reached source copy : ℕ} {m : ArchiveMessage}

/-- A copy has the id under which it was mapped. -/
theorem messageId_importedMessage (h : importedMessage (archive.find? copy) = some m) :
    m.messageId = copy := by
  cases hfind : archive.find? copy with
  | none =>
      rw [hfind] at h
      cases h
  | some message =>
      rw [hfind, importedMessage] at h
      split at h
      · obtain rfl := Option.some.inj h
        have hid : message.id = copy := KeyedTable.key_of_find? hfind
        exact hid
      · cases h

theorem mem_copies : m ∈ copies archive links ↔
    ∃ link ∈ links, importedMessage (archive.find? link.2) = some m := List.mem_filterMap

theorem mem_copiesUpTo : m ∈ copiesUpTo archive links reached ↔
    ∃ link ∈ links, link.1 ≤ reached ∧ importedMessage (archive.find? link.2) = some m := by
  rw [copiesUpTo, mem_copies]
  simp only [List.mem_filter, decide_eq_true_eq, and_assoc]

theorem mem_copies_of_upTo (h : m ∈ copiesUpTo archive links reached) :
    m ∈ copies archive links := by
  obtain ⟨link, hlink, -, hm⟩ := mem_copiesUpTo.1 h
  exact mem_copies.2 ⟨link, hlink, hm⟩

/-- The copies ascend when their ids do. -/
theorem ascending_copies (h : links.Pairwise fun a b => a.2 < b.2) :
    AscendingFrom 0 (copies archive links) := by
  refine List.pairwise_cons.2 ⟨fun id hid => ?_, ?_⟩
  · obtain ⟨m, -, rfl⟩ := List.mem_map.1 hid
    exact m.messageId_pos
  · rw [List.pairwise_map, copies, List.pairwise_filterMap]
    refine h.imp fun {a b} hlt m hm m' hm' => ?_
    rw [messageId_importedMessage hm, messageId_importedMessage hm']
    exact hlt

theorem ascending_copiesUpTo (h : links.Pairwise fun a b => a.2 < b.2) :
    AscendingFrom 0 (copiesUpTo archive links reached) :=
  ascending_copies (h.sublist List.filter_sublist)

/-- Nothing is added by a source message that has been reached. -/
theorem copiesUpTo_eq_copies (h : ∀ link ∈ links, link.1 ≤ reached) :
    copiesUpTo archive links reached = copies archive links := by
  have hall : (links.filter fun link => link.1 ≤ reached) = links :=
    List.filter_eq_self.2 fun link hlink => decide_eq_true (h link hlink)
  rw [copiesUpTo, hall]

/-- **The next source message** adds its copy. -/
theorem copiesUpTo_next (hsources : links.Pairwise fun a b => a.1 < b.1)
    (hlink : (source, copy) ∈ links)
    (hbeyond : reached < source)
    (hnext : ∀ link ∈ links, reached < link.1 → link.1 ≤ source → link.1 = source) :
    copiesUpTo archive links source =
      copiesUpTo archive links reached ++ (importedMessage (archive.find? copy)).toList := by
  obtain ⟨before, after, rfl⟩ := List.append_of_mem hlink
  rw [List.pairwise_append, List.pairwise_cons] at hsources
  obtain ⟨-, ⟨hafter, -⟩, hbefore⟩ := hsources
  have hlt : ∀ link ∈ before, link.1 < source := fun link h =>
    hbefore link h (source, copy) List.mem_cons_self
  have hold : ∀ link ∈ before, link.1 ≤ reached := by
    intro link h
    by_contra hnew
    have heq := hnext link (List.mem_append_left _ h) (not_le.1 hnew) (hlt link h).le
    exact absurd heq (hlt link h).ne
  have hnone : ∀ stop ≤ source, (after.filter fun link => link.1 ≤ stop) = [] := by
    intro stop hstop
    refine List.filter_eq_nil_iff.2 fun link h => ?_
    have hbehind : source < link.1 := hafter link h
    simp only [decide_eq_true_eq]
    omega
  have hsource : ((before ++ (source, copy) :: after).filter fun link => link.1 ≤ source) =
      before ++ [(source, copy)] := by
    rw [List.filter_append, List.filter_cons_of_pos (by simp), hnone source le_rfl,
      List.filter_eq_self.2 fun link h => decide_eq_true (hlt link h).le]
  have hreached : ((before ++ (source, copy) :: after).filter fun link => link.1 ≤ reached) =
      before := by
    rw [List.filter_append, List.filter_cons_of_neg (by simpa using hbeyond),
      hnone reached hbeyond.le,
      List.filter_eq_self.2 fun link h => decide_eq_true (hold link h), List.append_nil]
  rw [copiesUpTo, copiesUpTo, hsource, hreached, copies, copies, List.filterMap_append]
  cases himported : importedMessage (archive.find? copy) with
  | none => simp [himported]
  | some m => simp [himported]

end

/-! ### Marks and failures -/

namespace ImportRecord

/-- A mark keeps the mappings and moves the checkpoint to the source message at most. -/
theorem markReindexed_frame {r r' : ImportRecord} {sourceMessageId : ℕ} {missing : Bool}
    {now : Instant} (h : r.markReindexed sourceMessageId missing now = .ok r') :
    r'.map.links = r.map.links ∧ r'.job.lastReindexedSourceMessageId =
      max r.job.lastReindexedSourceMessageId sourceMessageId := by
  have hmark : (markRow r.map sourceMessageId now).links = r.map.links := by
    refine (List.map_map ..).trans (List.map_congr_left fun row _ => ?_)
    rw [Function.comp_apply]
    split
    · rfl
    · rfl
  unfold markReindexed at h
  split at h
  · cases h
  · obtain rfl := Except.ok.inj h
    refine ⟨?_, ?_⟩
    · dsimp only
      split
      · exact hmark
      · rfl
    · dsimp only
      split_ifs <;> simp_all <;> omega

end ImportRecord

/-! ### How far the catalogue has come -/

namespace ReindexWorld

/-- An item of a batch is a mapping; no version has been read for it if its copy is still to
come. -/
def Pending (archive : Channel) (links : List (ℕ × ℕ)) (reached : ℕ)
    (item : ImportMapping × ℕ) : Prop :=
  (item.1.sourceMessageId, item.1.archiveMessageId) ∈ links ∧
    (reached < item.1.sourceMessageId →
      (importedMessage (archive.find? item.1.archiveMessageId)).isSome → item.2 = 0)

/-- The answers are what the archive shows. -/
def Answered (archive : Channel) (links : List (ℕ × ℕ)) (reached : ℕ)
    (queue : List ((ImportMapping × ℕ) × Option TelegramMessage)) : Prop :=
  ∀ item ∈ queue, Pending archive links reached item.1 ∧
    item.2 = archive.find? item.1.1.archiveMessageId

/-- What a pass has in hand. -/
def InHand (archive : Channel) (links : List (ℕ × ℕ)) (reached : ℕ) : ReindexPhase → Prop
  | .lookup batch => ∀ item ∈ batch, Pending archive links reached item
  | .replaying queue => Answered archive links reached queue
  | .recording mapping queue =>
      mapping.sourceMessageId ≤ reached ∧ Answered archive links reached queue
  | _ => True

/-- **The catalogue is that of the copies up to `reached`**, and the job, the pass and what it has
in hand are not beyond. -/
structure Reached [UnicodeData] (parser : ArchiveParser) (archive : Channel) (links : List (ℕ × ℕ))
    (channelId : ℤ) (w : ReindexWorld) (reached : ℕ) : Prop where
  channel : w.archiveChannelId = channelId
  configured : getInt w.setting = .ok (some w.archiveChannelId)
  mapped : w.record.map.links = links
  tables : w.tables.unversioned.InStep parser w.archiveChannelId (copiesUpTo archive links reached)
  checkpoint : w.record.job.lastReindexedSourceMessageId ≤ reached
  completed : w.record.job.status = .completed → ∀ link ∈ links, link.1 ≤ reached
  pass : ∀ p, w.pass = some p → p.after ≤ reached ∧ InHand archive links reached p.phase

/-- The batch that is looked up. -/
def lookedUp (w : ReindexWorld) : Option (List (ImportMapping × ℕ)) :=
  match w.pass.map ReindexPass.phase with
  | some (.lookup batch) => some batch
  | _ => none

/-- Telegram answers a lookup with what the archive shows, or raises; meanwhile it may deliver posts
that have been recorded already. -/
def Truthful (archive : Channel) (w : ReindexWorld) : ReindexEvent → Prop
  | .lookup (.ok messages) => ∀ batch ∈ w.lookedUp,
      messages = batch.map fun item => archive.find? item.1.archiveMessageId
  | .live (.ingest _ channelId message) => (w.tables.snapshot? channelId message.messageId).isSome
  | .live (.reconcileEdit ..) => False
  | _ => True

instance {archive : Channel} {w : ReindexWorld} : ∀ event, Decidable (Truthful archive w event)
  | .lookup (.ok messages) => inferInstanceAs (Decidable (∀ batch ∈ w.lookedUp,
      messages = batch.map fun item => archive.find? item.1.archiveMessageId))
  | .lookup (.error _) => isTrue trivial
  | .live (.ingest _ channelId message) =>
      inferInstanceAs (Decidable ((w.tables.snapshot? channelId message.messageId).isSome = true))
  | .live (.reconcileEdit ..) => isFalse id
  | .start .. => isTrue trivial
  | .advance _ => isTrue trivial
  | .crash => isTrue trivial

/-- What the indexer takes: the copies ascend with their source messages, and their ids and titles
fit. -/
structure Catalogued [UnicodeData] (archive : Channel) (links : List (ℕ × ℕ)) : Prop where
  positive : ∀ link ∈ links, 0 < link.1
  ascending : links.Pairwise fun a b => a.2 < b.2
  bounded : ∀ m ∈ copies archive links, m.messageId < bigintMax
  titles : ∀ m ∈ copies archive links, TitlesFit m
  captions : ∀ m ∈ copies archive links, ArchiveTables.CaptionShowsQuality m

section

variable [UnicodeData] {parser : ArchiveParser} {archive : Channel} {links : List (ℕ × ℕ)}
  {channelId : ℤ} {w : ReindexWorld} {reached reached' : ℕ} {p : ReindexPass}

omit [UnicodeData] in
theorem Pending.mono {item : ImportMapping × ℕ} (h : Pending archive links reached item)
    (hle : reached ≤ reached') : Pending archive links reached' item :=
  ⟨h.1, fun hlt => h.2 (lt_of_le_of_lt hle hlt)⟩

omit [UnicodeData] in
theorem Answered.mono {queue : List ((ImportMapping × ℕ) × Option TelegramMessage)}
    (h : Answered archive links reached queue) (hle : reached ≤ reached') :
    Answered archive links reached' queue :=
  fun item hitem => ⟨(h item hitem).1.mono hle, (h item hitem).2⟩

omit [UnicodeData] in
theorem InHand.mono {phase : ReindexPhase} (h : InHand archive links reached phase)
    (hle : reached ≤ reached') : InHand archive links reached' phase := by
  cases phase with
  | lookup batch => exact fun item hitem => (h item hitem).mono hle
  | replaying queue => exact Answered.mono h hle
  | recording mapping queue => exact ⟨h.1.trans hle, h.2.mono hle⟩
  | _ => trivial

/-- A later source message has a later copy. -/
theorem Catalogued.copy_lt (h : Catalogued archive links)
    (hsources : links.Pairwise fun a b => a.1 < b.1)
    {a b : ℕ × ℕ} (ha : a ∈ links) (hb : b ∈ links) (hlt : a.1 < b.1) : a.2 < b.2 := by
  obtain ⟨before, after, rfl⟩ := List.append_of_mem ha
  have hsources := (List.pairwise_append.1 hsources).2.2
  have hascending := (List.pairwise_cons.1 (List.pairwise_append.1 h.ascending).2.1).1
  rcases List.mem_append.1 hb with hb | hb
  · exact absurd hlt (hsources b hb a List.mem_cons_self).not_gt
  · rcases List.mem_cons.1 hb with rfl | hb
    · exact absurd hlt (lt_irrefl _)
    · exact hascending b hb

theorem Reached.sources (h : Reached parser archive links channelId w reached) :
    links.Pairwise fun a b => a.1 < b.1 := by
  rw [← h.mapped, ImportMap.links, List.pairwise_map]
  exact w.record.map.rows.ordered

/-- The source messages up to the head of the queue have been reached. -/
theorem Reached.next (h : Reached parser archive links channelId w reached)
    (hafter : p.after ≤ reached) {mapping : ImportMapping} {queue : List ImportMapping}
    (hqueued : w.record.map.Queued p.after (mapping :: queue)) :
    ∀ link ∈ links, reached < link.1 → link.1 ≤ mapping.sourceMessageId →
      link.1 = mapping.sourceMessageId := by
  intro link hlink hbeyond hle
  rw [← h.mapped] at hlink
  obtain ⟨row, hrow, rfl⟩ := List.mem_map.1 hlink
  exact hqueued.head hrow (lt_of_le_of_lt hafter hbeyond) hle

/-- The call ends. -/
theorem Reached.stop (h : Reached parser archive links channelId w reached) :
    Reached parser archive links channelId w.stop reached :=
  ⟨h.channel, h.configured, h.mapped, h.tables, h.checkpoint, h.completed, fun _ hp => by cases hp⟩

/-- The pass goes on. -/
theorem Reached.goesOn (h : Reached parser archive links channelId w reached)
    {covered : Option (List ℕ)}
    (hafter : p.after ≤ reached) (hphase : InHand archive links reached p.phase) :
    Reached parser archive links channelId { w with pass := some p, covered } reached := by
  refine ⟨h.channel, h.configured, h.mapped, h.tables, h.checkpoint, h.completed, fun p' hp' => ?_⟩
  obtain rfl := Option.some.inj hp'
  exact ⟨hafter, hphase⟩

/-- **Reaching further without a new copy.** -/
theorem Reached.further (h : Reached parser archive links channelId w reached)
    (hle : reached ≤ reached')
    (hsame : copiesUpTo archive links reached' = copiesUpTo archive links reached) :
    Reached parser archive links channelId w reached' :=
  ⟨h.channel, h.configured, h.mapped, hsame ▸ h.tables, h.checkpoint.trans hle,
    fun hcompleted link hlink => (h.completed hcompleted link hlink).trans hle,
    fun p hp => ⟨(h.pass p hp).1.trans hle, (h.pass p hp).2.mono hle⟩⟩

/-- A mapping that has been reached is marked. -/
theorem Reached.recordMapping (h : Reached parser archive links channelId w reached)
    {mapping : ImportMapping}
    {missing : Bool} {queue : List ((ImportMapping × ℕ) × Option TelegramMessage)} {now : Instant}
    (hsource : mapping.sourceMessageId ≤ reached) (hqueue : Answered archive links reached queue) :
    Reached parser archive links channelId (w.recordMapping p mapping missing queue now)
      reached := by
  unfold ReindexWorld.recordMapping
  split
  · next record hrecord =>
      obtain ⟨hlinks, hcheckpoint⟩ := ImportRecord.markReindexed_frame hrecord
      obtain ⟨hstatus, -⟩ := ImportRecord.markReindexed_spec hrecord
      refine ⟨h.channel, h.configured, hlinks.trans h.mapped, h.tables, ?_,
        fun hcompleted => ?_, ?_⟩
      · exact hcheckpoint ▸ max_le h.checkpoint hsource
      · exact h.completed (hstatus ▸ hcompleted)
      · intro p' hp'
        obtain rfl := Option.some.inj hp'
        exact ⟨hsource, hqueue⟩
  · exact h.stop

/-- A call fails. -/
theorem Reached.recordFailure (h : Reached parser archive links channelId w reached)
    {failure : ImportFailure} :
    Reached parser archive links channelId (w.recordFailure failure) reached := by
  have hmark : ∀ {target : ImportStatus} {f : ImportJob → ImportJob} {job : ImportJob},
      (w.record.job.transition target).map f = .ok job → target ≠ .completed →
        (∀ job, (f job).status = job.status ∧
          (f job).lastReindexedSourceMessageId = job.lastReindexedSourceMessageId) →
          Reached parser archive links channelId { w with record := { w.record with job } }.stop
            reached := by
    intro target f job hjob htarget hf
    obtain rfl := ImportJob.map_transition_eq hjob
    obtain ⟨hstatus, hcheckpoint⟩ := hf { w.record.job with status := target }
    refine ⟨h.channel, h.configured, h.mapped, h.tables, hcheckpoint.le.trans h.checkpoint,
      fun hcompleted => ?_,
      h.stop.pass⟩
    exact absurd (hstatus.symm.trans hcompleted) htarget
  unfold ReindexWorld.recordFailure
  cases failure with
  | channelAccess text =>
      dsimp only
      split
      · next job hjob => exact hmark hjob (by simp) fun _ => ⟨rfl, rfl⟩
      · exact h.stop
  | other text => exact h.stop
  | _ =>
      dsimp only
      split
      · next job hjob => exact hmark hjob (by simp) fun _ => ⟨rfl, rfl⟩
      · exact h.stop

/-! ### The transactions of a pass -/

/-- A new call begins at the checkpoint, or before it. -/
theorem Reached.startPass (h : Reached parser archive links channelId w reached) {full : Bool}
    {batchSize : ℤ}
    {resolved : Bool} :
    Reached parser archive links channelId (w.startPass full batchSize resolved) reached := by
  unfold ReindexWorld.startPass
  split
  · exact h
  · refine h.goesOn ?_ ?_
    · simp only [firstPass]
      split
      · exact Nat.zero_le _
      · exact h.checkpoint
    · simp only [firstPass]
      split
      · trivial
      · trivial

/-- **A batch is listed**: no version is read for a copy that is still to come. -/
theorem Reached.pending (h : Reached parser archive links channelId w reached)
    (hcatalogued : Catalogued archive links) {mapping : ImportMapping}
    (hmapping : mapping ∈ w.record.map.rows) :
    Pending archive links reached
      (mapping, w.tables.snapshotVersion w.archiveChannelId mapping.archiveMessageId) := by
  have hlink : (mapping.sourceMessageId, mapping.archiveMessageId) ∈ links :=
    h.mapped ▸ List.mem_map_of_mem hmapping
  refine ⟨hlink, fun hbeyond hshown => ?_⟩
  obtain ⟨message, hmessage⟩ := Option.isSome_iff_exists.1 hshown
  have hid : message.messageId = mapping.archiveMessageId := messageId_importedMessage hmessage
  have hnone : w.tables.unversioned.snapshot? w.archiveChannelId message.messageId = none := by
    refine h.tables.stream.snapshot?_eq_none fun m hm => ?_
    obtain ⟨link, hlink', hle, hcopy⟩ := mem_copiesUpTo.1 hm
    rw [messageId_importedMessage hcopy, hid]
    exact (hcatalogued.copy_lt h.sources hlink' hlink (lt_of_le_of_lt hle hbeyond)).ne
  rw [ArchiveTables.snapshot?_unversioned, hid] at hnone
  rw [ArchiveTables.snapshotVersion, Option.map_eq_none_iff.1 hnone]
  rfl

/-- The lookup of a batch is answered. -/
theorem Reached.answerLookup (h : Reached parser archive links channelId w reached)
    {answer : Except ImportFailure (List (Option TelegramMessage))}
    (htruthful : Truthful archive w (.lookup answer)) :
    Reached parser archive links channelId (w.answerLookup answer) reached := by
  unfold ReindexWorld.answerLookup
  split
  · exact h
  · next p hpass =>
      obtain ⟨hafter, hphase⟩ := h.pass p hpass
      split
      · next batch hbatch =>
          rw [hbatch] at hphase
          split
          · exact h.goesOn hafter trivial
          · next messages =>
              split
              · exact h.goesOn hafter trivial
              · refine h.goesOn hafter fun item hitem => ?_
                have hmessages := htruthful batch
                  (by rw [lookedUp, hpass, Option.map_some, hbatch]; rfl)
                rw [hmessages, ← List.map_prod_left_eq_zip, List.mem_map] at hitem
                obtain ⟨item', hitem', rfl⟩ := hitem
                exact ⟨hphase item' hitem', rfl⟩
      · exact h

/-- **The head of the queue is passed over**: its copy is not shown. -/
theorem Reached.passOver (h : Reached parser archive links channelId w reached)
    {mapping : ImportMapping}
    {version : ℕ} (hpending : Pending archive links reached (mapping, version))
    (hnext : ∀ link ∈ links, reached < link.1 → link.1 ≤ mapping.sourceMessageId →
      link.1 = mapping.sourceMessageId)
    (hmissing : importedMessage (archive.find? mapping.archiveMessageId) = none) :
    Reached parser archive links channelId w (max reached mapping.sourceMessageId) := by
  by_cases hbeyond : reached < mapping.sourceMessageId
  · rw [max_eq_right hbeyond.le]
    refine h.further hbeyond.le ?_
    rw [copiesUpTo_next h.sources hpending.1 hbeyond hnext, hmissing]
    exact List.append_nil _
  · rw [max_eq_left (not_lt.1 hbeyond)]
    exact h

/-- A copy that is not shown is recorded as missing. -/
theorem Reached.recordMissing (h : Reached parser archive links channelId w reached)
    {mapping : ImportMapping} {version : ℕ}
    {queue : List ((ImportMapping × ℕ) × Option TelegramMessage)} {now : Instant}
    (hpending : Pending archive links reached (mapping, version))
    (hnext : ∀ link ∈ links, reached < link.1 → link.1 ≤ mapping.sourceMessageId →
      link.1 = mapping.sourceMessageId)
    (hmissing : importedMessage (archive.find? mapping.archiveMessageId) = none)
    (hqueue : Answered archive links reached queue) :
    ∃ reached' ≥ reached,
      Reached parser archive links channelId (w.recordMapping p mapping true queue now)
        reached' := by
  have hpassed := h.passOver hpending hnext hmissing
  exact ⟨_, le_max_left _ _,
    hpassed.recordMapping (le_max_right _ _) (hqueue.mono (le_max_left _ _))⟩

/-- **The head of the queue is reconciled**: its copy is behind the others, or one of them. -/
theorem Reached.reconcile (hdigits : DecimalDigits)
    (h : Reached parser archive links channelId w reached)
    (hcatalogued : Catalogued archive links) {mapping : ImportMapping} {version : ℕ}
    {message : ArchiveMessage} {tables : ArchiveTables} {result : ArchiveIndexResult}
    (hpending : Pending archive links reached (mapping, version))
    (hnext : ∀ link ∈ links, reached < link.1 → link.1 ≤ mapping.sourceMessageId →
      link.1 = mapping.sourceMessageId)
    (hmessage : importedMessage (archive.find? mapping.archiveMessageId) = some message)
    (hok : w.tables.reconcileEdit parser w.setting w.archiveChannelId message (some version) =
      .ok (tables, result)) :
    Reached parser archive links channelId { w with tables }
    (max reached mapping.sourceMessageId) := by
  by_cases hbeyond : reached < mapping.sourceMessageId
  · rw [max_eq_right hbeyond.le]
    have hcopies : copiesUpTo archive links mapping.sourceMessageId =
        copiesUpTo archive links reached ++ [message] := by
      rw [copiesUpTo_next h.sources hpending.1 hbeyond hnext, hmessage]
      rfl
    have hversion : version = 0 := hpending.2 hbeyond (by rw [hmessage]; rfl)
    have hlast : message ∈ copies archive links :=
      mem_copies.2 ⟨_, hpending.1, hmessage⟩
    have hasc : AscendingFrom 0 (copiesUpTo archive links mapping.sourceMessageId) :=
      ascending_copiesUpTo hcatalogued.ascending
    rw [hcopies] at hasc
    have hbound : ∀ m ∈ copiesUpTo archive links reached ++ [message], m.messageId < bigintMax :=
      fun m hm => hcatalogued.bounded m (mem_copies_of_upTo (hcopies ▸ hm))
    subst hversion
    have htables := ArchiveTables.reconcileEdit_next hdigits h.tables hasc hbound
      (hcatalogued.titles message hlast) (hcatalogued.captions message hlast) h.configured hok
    exact ⟨h.channel, h.configured, h.mapped, hcopies ▸ htables, h.checkpoint.trans hbeyond.le,
      fun hcompleted link hlink => (h.completed hcompleted link hlink).trans hbeyond.le,
      fun p hp => ⟨(h.pass p hp).1.trans hbeyond.le, (h.pass p hp).2.mono hbeyond.le⟩⟩
  · -- it has been reconciled before: a full pass, or the last one crashed before the mark
    rw [max_eq_left (not_lt.1 hbeyond)]
    have hmem : message ∈ copiesUpTo archive links reached :=
      mem_copiesUpTo.2 ⟨_, hpending.1, not_lt.1 hbeyond, hmessage⟩
    have htables := ArchiveTables.reconcileEdit_again h.tables
      (ascending_copiesUpTo hcatalogued.ascending)
      (fun m hm => hcatalogued.bounded m (mem_copies_of_upTo hm)) hmem h.configured hok
    exact ⟨h.channel, h.configured, h.mapped, htables, h.checkpoint, h.completed, h.pass⟩

/-- **A transaction of a pass** takes the catalogue on, or leaves it where it is. -/
theorem Reached.advance (hdigits : DecimalDigits)
    (h : Reached parser archive links channelId w reached)
    (hsound : w.Sound) (hcatalogued : Catalogued archive links) {now : Instant} :
    ∃ reached' ≥ reached,
      Reached parser archive links channelId (w.advance parser now) reached' := by
  unfold ReindexWorld.advance
  split
  · exact ⟨reached, le_rfl, h⟩
  · next p hpass =>
      have hp := hsound p hpass
      obtain ⟨hafter, hphase⟩ := h.pass p hpass
      split
      · refine ⟨reached, le_rfl, ?_⟩
        split
        · next job hjob =>
            obtain rfl := ImportJob.map_transition_eq hjob
            refine ⟨h.channel, h.configured, h.mapped, h.tables, h.checkpoint,
              fun hcompleted => (by cases hcompleted), fun p' hp' => ?_⟩
            obtain rfl := Option.some.inj hp'
            exact ⟨hafter, trivial⟩
        · exact h.stop
      · refine ⟨reached, le_rfl, ?_⟩
        split
        · split
          · exact h.goesOn hafter trivial
          · exact h.stop
        · -- the versions are read before the lookup
          refine h.goesOn hafter fun item hitem => ?_
          obtain ⟨mapping, hmapping, rfl⟩ := List.mem_map.1 hitem
          exact h.pending hcatalogued (List.mem_of_mem_filter (List.mem_of_mem_take hmapping))
      · exact ⟨reached, le_rfl, h⟩
      · exact ⟨reached, le_rfl, h.goesOn hafter trivial⟩
      · next mapping version queue hreplaying =>
          -- the copy is gone
          have hqueued := hp.queued
          rw [hreplaying] at hqueued hphase
          obtain ⟨⟨hpending, hshown⟩, hqueue⟩ := List.forall_mem_cons.1 hphase
          have hmissing : importedMessage (archive.find? mapping.archiveMessageId) = none := by
            rw [← hshown]
            rfl
          exact h.recordMissing hpending (h.next hafter hqueued) hmissing hqueue
      · next mapping version message queue hreplaying =>
          have hqueued := hp.queued
          rw [hreplaying] at hqueued hphase
          obtain ⟨⟨hpending, hshown⟩, hqueue⟩ := List.forall_mem_cons.1 hphase
          dsimp only at hshown
          split
          · next himportable =>
              have hmessage : importedMessage (archive.find? mapping.archiveMessageId) =
                  some (message.toArchive (pos_of_isImportable himportable)) := by
                rw [← hshown, importedMessage, dif_pos himportable]
              split
              · next tables result hok =>
                  have hreached := h.reconcile hdigits hcatalogued hpending (h.next hafter hqueued)
                    hmessage hok
                  exact ⟨_, le_max_left _ _, hreached.goesOn (hafter.trans (le_max_left _ _))
                    ⟨le_max_right _ _, Answered.mono hqueue (le_max_left _ _)⟩⟩
              · exact ⟨reached, le_rfl, h.stop⟩
          · next himportable =>
              -- it is a service message
              have hmissing : importedMessage (archive.find? mapping.archiveMessageId) = none := by
                rw [← hshown, importedMessage, dif_neg himportable]
              exact h.recordMissing hpending (h.next hafter hqueued) hmissing hqueue
      · next mapping queue hrecording =>
          rw [hrecording] at hphase
          exact ⟨reached, le_rfl, h.recordMapping hphase.1 hphase.2⟩
      · next hcompleting =>
          -- no mapping is beyond the pass, and the pass is not beyond the catalogue
          refine ⟨reached, le_rfl, ?_⟩
          split
          · next job hjob =>
              obtain rfl := ImportJob.map_transition_eq hjob
              refine ⟨h.channel, h.configured, h.mapped, h.tables, h.checkpoint,
                fun _ link hlink => ?_, h.stop.pass⟩
              rw [← h.mapped] at hlink
              obtain ⟨row, hrow, rfl⟩ := List.mem_map.1 hlink
              exact ((hp.finished hcompleting).2 row hrow).trans hafter
          · exact h.stop
      · exact ⟨reached, le_rfl, h.recordFailure⟩

/-- **Every event** takes the catalogue on, or leaves it where it is. -/
theorem Reached.step (hdigits : DecimalDigits)
    (h : Reached parser archive links channelId w reached)
    (hsound : w.Sound) (hcatalogued : Catalogued archive links) {event : ReindexEvent}
    (htruthful : Truthful archive w event) :
    ∃ reached' ≥ reached,
      Reached parser archive links channelId (w.step parser event) reached' := by
  cases event with
  | start full batchSize resolved => exact ⟨reached, le_rfl, h.startPass⟩
  | advance now => exact h.advance hdigits hsound hcatalogued
  | lookup answer => exact ⟨reached, le_rfl, h.answerLookup htruthful⟩
  | live call =>
      refine ⟨reached, le_rfl, ?_⟩
      cases call with
      | ingest configured channel message =>
          rw [ReindexWorld.step, ArchiveTables.call_ingest_of_seen htruthful]
          exact h
      | reconcileEdit => exact htruthful.elim
  | crash => exact ⟨reached, le_rfl, h.stop⟩

/-! ### Runs -/

variable (parser) in
/-- A job that has not been reindexed, and a channel that is still empty. -/
theorem reached_initial (hcatalogued : Catalogued archive links) {setting : Option SettingValue}
    {record : ImportRecord} {tables : ArchiveTables} (hlinks : record.map.links = links)
    (hconfigured : getInt setting = .ok (some channelId)) (hsound : tables.Sound)
    (hfits : tables.fitsColumns) (hempty : tables.channelSnapshots channelId = [])
    (hcheckpoint : record.job.lastReindexedSourceMessageId = 0)
    (hopen : record.job.status ≠ .completed) :
    Reached parser archive links channelId (initial channelId setting record tables) 0 := by
  have hcopies : copiesUpTo archive links 0 = [] := by
    refine List.eq_nil_iff_forall_not_mem.2 fun m hm => ?_
    obtain ⟨link, hlink, hle, -⟩ := mem_copiesUpTo.1 hm
    exact absurd (hcatalogued.positive link hlink) (not_lt.2 hle)
  have hnone : tables.unversioned.channelSnapshots channelId = [] := by
    refine List.eq_nil_iff_forall_not_mem.2 fun s' hs' => ?_
    obtain ⟨hmem, hchannel⟩ := ArchiveTables.mem_channelSnapshots.1 hs'
    obtain ⟨s, hs, rfl⟩ := ArchiveTables.mem_unversioned.1 hmem
    have hs : s ∈ tables.channelSnapshots channelId :=
      ArchiveTables.mem_channelSnapshots.2 ⟨hs, hchannel⟩
    rw [hempty] at hs
    cases hs
  refine ⟨rfl, hconfigured, hlinks, ?_, hcheckpoint.le, fun hcompleted => absurd hcompleted hopen,
    fun _ hp => by cases hp⟩
  rw [hcopies]
  have hstart : tables.InStep parser channelId [] := ArchiveTables.inStep_nil hsound hfits hempty
  exact ⟨⟨hstart.keys.of_eq rfl rfl, hstart.linked.unversioned,
    ArchiveTables.fitsColumns_unversioned hfits, hnone,
      hstart.movies.imp fun _ _ hmirrors => hmirrors.of_items rfl⟩, hstart.decided⟩

variable (parser) (archive) in
/-- **The catalogue of a reindex**: whatever happens to the passes, the catalogue is what the parser
reads from the copies up to some source message, which is not before the checkpoint, and from all of
them once the job is completed. -/
theorem reindexed_eq_parsed (hdigits : DecimalDigits) (calls : List ArchiveCall)
    (hempty : (Transition.run (ArchiveTables.call parser) .empty calls).channelSnapshots
      channelId = [])
    (setting : Option SettingValue) (hconfigured : getInt setting = .ok (some channelId))
    (record : ImportRecord) (hcatalogued : Catalogued archive record.map.links)
    (hcheckpoint : record.job.lastReindexedSourceMessageId = 0)
    (hopen : record.job.status ≠ .completed) (events : List ReindexEvent)
    (htruthful : Transition.Along (ReindexWorld.step parser) (Truthful archive)
      (initial channelId setting record (Transition.run (ArchiveTables.call parser) .empty calls))
      events) :
    let w := Transition.run (ReindexWorld.step parser) (initial channelId setting record
      (Transition.run (ArchiveTables.call parser) .empty calls)) events
    ∃ reached groups,
      parser.parse (copiesUpTo archive record.map.links reached) = .ok groups ∧
        List.Forall₂ w.tables.Reflects (w.tables.channelMovies channelId) groups ∧
          (∀ row ∈ w.tables.qualities, row.archiveChannelId = channelId →
            ∃ movie ∈ w.tables.channelMovies channelId, movie.id = row.movieId) ∧
          w.record.job.lastReindexedSourceMessageId ≤ reached ∧
          (w.record.job.status = .completed →
            copiesUpTo archive record.map.links reached = copies archive record.map.links) := by
  have hsound : (Transition.run (ArchiveTables.call parser) ArchiveTables.empty calls).Sound :=
    Transition.run_invariant (fun _ c ht => ht.call c) ArchiveTables.empty_sound calls
  have hfits : (Transition.run (ArchiveTables.call parser) ArchiveTables.empty calls).fitsColumns :=
    Transition.run_invariant (I := fun t : ArchiveTables => t.fitsColumns)
      (fun _ c ht => ArchiveTables.fitsColumns_call ht c) (by decide) calls
  have hinitial := reached_initial parser hcatalogued rfl hconfigured hsound hfits hempty
    hcheckpoint hopen
  intro w
  obtain ⟨-, reached, hreached⟩ : w.Sound ∧
      ∃ reached, Reached parser archive record.map.links channelId w reached :=
    Transition.run_invariant_along
      (I := fun w : ReindexWorld => w.Sound ∧
        ∃ reached, Reached parser archive record.map.links channelId w reached)
      (fun w event hw htruth => by
        obtain ⟨hw, reached, hreached⟩ := hw
        obtain ⟨reached', -, hstep⟩ := hreached.step hdigits hw hcatalogued htruth
        exact ⟨hw.step event, reached', hstep⟩)
      ⟨fun _ hp => (by cases hp), 0, hinitial⟩ htruthful
  have htables := hreached.tables
  rw [hreached.channel] at htables
  obtain ⟨groups, hparse, hreflects, hrows⟩ :=
    htables.parsed (ascending_copiesUpTo hcatalogued.ascending)
  -- what a movie reflects is not in the snapshots
  have hreflects' : List.Forall₂ w.tables.Reflects (w.tables.channelMovies channelId) groups :=
    hreflects.imp fun _ _ h => ⟨h.posterMessageId, h.displayTitle, h.normalizedTitle, h.year,
      h.parserStyle, h.parserConfidence, h.qualities, h.status⟩
  exact ⟨reached, groups, hparse, hreflects', hrows, hreached.checkpoint, fun hcompleted =>
    copiesUpTo_eq_copies (hreached.completed hcompleted)⟩

end

/-! ### A reindex that is interrupted -/

section

attribute [local instance] UnicodeData.asciiArabic

/-- The copies of a film with two files. -/
def filmCopies : List TelegramMessage :=
  [{ id := 101, photo := true, rawText := some "الفيلم: Up\nالسنة: 2014".toList },
    { id := 102, video := true, rawText := some "Up 720p".toList },
    { id := 103, video := true, rawText := some "Up 1080p".toList }]

def filmArchive : Channel := filmCopies.foldl KeyedTable.insert .empty

/-- The film has been transferred. -/
def filmRecord : ImportRecord where
  job := { status := .transferred, sourceHighWatermarkId := some 3, lastCopiedSourceMessageId := 3 }
  map := (ImportMap.empty.insertMappings [(1, 101), (2, 102), (3, 103)]).1

/-- The first pass crashes when the first file has been reconciled and not marked; a full pass
crashes behind the poster, which is then delivered late, and an ordinary one completes the job. -/
def interruptedFilm : List ReindexEvent :=
  [.start false 100 true, .advance 0, .advance 0, .lookup (.ok (filmCopies.map some)), .advance 0,
    .advance 0, .advance 0, .crash,
    .start true 100 true, .advance 1, .advance 1, .lookup (.ok (filmCopies.map some)), .advance 1,
    .advance 1, .crash, .live (.ingest (some (.int 7)) 7 (ArchiveTables.samplePoster 101)),
    .start false 100 true, .advance 2, .advance 2, .lookup (.ok ((filmCopies.drop 1).map some)),
    .advance 2, .advance 2, .advance 2, .advance 2, .advance 2, .advance 2, .advance 2]

theorem catalogued_film : Catalogued filmArchive filmRecord.map.links := by
  refine ⟨by decide +kernel, by decide +kernel, ?_, ?_, ?_⟩
  · decide +kernel
  · decide +kernel
  · decide +kernel

theorem reindexed_eq_parsed_interrupted :
    ∃ groups, ArchiveParser.parse {} (copies filmArchive filmRecord.map.links) = .ok groups ∧
      List.Forall₂
        (Transition.run (ReindexWorld.step {}) (initial 7 (some (.int 7)) filmRecord .empty)
          interruptedFilm).tables.Reflects
        ((Transition.run (ReindexWorld.step {}) (initial 7 (some (.int 7)) filmRecord .empty)
          interruptedFilm).tables.channelMovies 7) groups := by
  have hdigits : DecimalDigits := UnicodeData.decimalDigits_asciiArabic
  obtain ⟨reached, groups, hparse, hreflects, -, -, hcompleted⟩ :=
    reindexed_eq_parsed {} filmArchive hdigits [] rfl (some (.int 7)) rfl filmRecord
      catalogued_film rfl (by decide) interruptedFilm (by decide +kernel)
  have hstatus :
      (Transition.run (ReindexWorld.step {}) (initial 7 (some (.int 7)) filmRecord .empty)
        interruptedFilm).record.job.status = .completed := by
    decide +kernel
  exact ⟨groups, hcompleted hstatus ▸ hparse, hreflects⟩

end

end ReindexWorld

end CineGate
