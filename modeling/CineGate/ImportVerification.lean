/-
**Verifying an import.**

`HistoricalImportService.verify` walks over the mapping of a job page by page and looks every copy
up in the archive.  It holds the lock of the import, so that the mapping stays as it is; the archive
is open to everybody, and messages can be posted, edited and deleted between two pages.

* `ImportVerification.record`, `ImportMapping.verdict` — the judgement on one mapping;
* `VerifyWorld.step` — a page is listed, a page is looked up, or the archive changes;
* `VerifyWorld.verification_judges_every_mapping_once` — every mapping is judged once, by the
  archive of some moment of the pass;
* `VerifyWorld.transfer_is_verified` — after a transfer, verification finds every copy.
-/

import CineGate.ImportAccounts
import CineGate.Reindex
import CineGate.Progress

set_option relaxedAutoImplicit false
set_option autoImplicit false

namespace CineGate

/-! ### The judgement on a mapping -/

/-- What `verify` finds for a mapping. -/
inductive CopyVerdict
  | present
  | missing
  | mismatched
deriving DecidableEq, Repr

/-- The result of `verify`. -/
structure ImportVerification where
  totalMappings : ℕ := 0
  presentMessages : ℕ := 0
  missingMessages : ℕ := 0
  sourceMismatches : ℕ := 0
deriving DecidableEq, Repr

/-- The message of a mapping is judged. -/
def ImportMapping.judge (sourceChannelId : ℤ) (mapping : ImportMapping) :
    Option TelegramMessage → CopyVerdict
  | none => .missing
  | some message =>
      if !isImportable (some message) then .missing
      else if message.forwardedSourceMessageId? sourceChannelId = some mapping.sourceMessageId then
        .present
      else .mismatched

/-- The verdict of an archive on a mapping. -/
def ImportMapping.verdict (sourceChannelId : ℤ) (archive : Channel) (mapping : ImportMapping) :
    CopyVerdict :=
  mapping.judge sourceChannelId (archive.find? mapping.archiveMessageId)

namespace ImportVerification

/-- One round of the inner loop of `verify`. -/
def record (counts : ImportVerification) (verdict : CopyVerdict) : ImportVerification :=
  match verdict with
  | .missing =>
      { counts with
        totalMappings := counts.totalMappings + 1
        missingMessages := counts.missingMessages + 1 }
  | .present =>
      { counts with
        totalMappings := counts.totalMappings + 1
        presentMessages := counts.presentMessages + 1 }
  | .mismatched =>
      { counts with
        totalMappings := counts.totalMappings + 1
        sourceMismatches := counts.sourceMismatches + 1 }

/-- The code `_verify` exits with. -/
def exitCode (v : ImportVerification) : ℕ :=
  if v.missingMessages = 0 && v.sourceMismatches = 0 then 0 else 3

/-- The tally of verdicts. -/
def tally (verdicts : List CopyVerdict) : ImportVerification where
  totalMappings := verdicts.length
  presentMessages := verdicts.count .present
  missingMessages := verdicts.count .missing
  sourceMismatches := verdicts.count .mismatched

/-- **The loop tallies.** -/
theorem foldl_record (before verdicts : List CopyVerdict) :
    verdicts.foldl record (tally before) = tally (before ++ verdicts) := by
  induction verdicts generalizing before with
  | nil => simp
  | cons verdict verdicts ih =>
      have hone : (tally before).record verdict = tally (before ++ [verdict]) := by
        cases verdict <;> simp [record, tally, List.count_append]
      rw [List.foldl_cons, hone, ih, List.append_assoc]
      rfl

/-- No mapping is counted twice. -/
theorem total_tally (verdicts : List CopyVerdict) :
    (tally verdicts).presentMessages + (tally verdicts).missingMessages +
      (tally verdicts).sourceMismatches = (tally verdicts).totalMappings := by
  induction verdicts with
  | nil => rfl
  | cons verdict verdicts ih =>
      simp only [tally, List.length_cons] at ih ⊢
      cases verdict <;> simp <;> omega

/-- Verification succeeds when every copy has been found. -/
theorem exitCode_tally (verdicts : List CopyVerdict) :
    (tally verdicts).exitCode = 0 ↔ ∀ verdict ∈ verdicts, verdict = .present := by
  have hiff : (tally verdicts).exitCode = 0 ↔
      CopyVerdict.missing ∉ verdicts ∧ .mismatched ∉ verdicts := by
    simp [exitCode, tally, List.count_eq_zero]
  rw [hiff]
  constructor
  · rintro ⟨hmissing, hmismatched⟩ verdict hmem
    cases verdict with
    | present => rfl
    | missing => exact absurd hmem hmissing
    | mismatched => exact absurd hmem hmismatched
  · intro h
    exact ⟨fun hmem => (by cases h _ hmem), fun hmem => (by cases h _ hmem)⟩

end ImportVerification

/-! ### The pass -/

/-- Where a pass stands: before it lists the next page, or before it looks a page up. -/
inductive VerifyState
  | listing (afterSourceId : ℕ) (counts : ImportVerification)
  | looking (page : List ImportMapping) (afterSourceId : ℕ) (counts : ImportVerification)
  | verified (result : ImportVerification)
  | failed (failure : ImportFailure)

/-- A pass over the mapping of a job, which the lock protects, and the archive. -/
structure VerifyWorld where
  sourceChannelId : ℤ
  map : ImportMap
  batchSize : ℤ
  archive : Channel
  state : VerifyState := .listing 0 {}

inductive VerifyEvent
  | list
  | lookup (answer : Except ImportFailure (List (Option TelegramMessage)))
  | changed (archive : Channel)

namespace VerifyWorld

/-- The next page is listed. -/
def list (w : VerifyWorld) : VerifyWorld :=
  match w.state with
  | .listing afterSourceId counts =>
      match w.map.listMappingsAfter afterSourceId w.batchSize with
      | [] => { w with state := .verified counts }
      | page => { w with state := .looking page afterSourceId counts }
  | _ => w

/-- The gateway answers `get_messages_by_ids`, and the page is judged. -/
def lookup (w : VerifyWorld) (answer : Except ImportFailure (List (Option TelegramMessage))) :
    VerifyWorld :=
  match w.state with
  | .looking page afterSourceId counts =>
      match answer with
      | .error failure => { w with state := .failed failure }
      | .ok messages =>
          if messages.length ≠ page.length then
            { w with
              state := .failed (.historicalImport
                "archive verification returned an unexpected result length".toList) }
          else
            let verdicts := (page.zip messages).map fun p => p.1.judge w.sourceChannelId p.2
            { w with
              state := .listing
                ((page.getLast?.map ImportMapping.sourceMessageId).getD afterSourceId)
                (verdicts.foldl ImportVerification.record counts) }
  | _ => w

def step (w : VerifyWorld) : VerifyEvent → VerifyWorld
  | .list => w.list
  | .lookup answer => w.lookup answer
  | .changed archive => { w with archive }

/-- A pass begins. -/
def initial (sourceChannelId : ℤ) (map : ImportMap) (batchSize : ℤ) (archive : Channel) :
    VerifyWorld :=
  { sourceChannelId, map, batchSize, archive }

/-- The gateway answers with the messages that are in the archive, or it raises. -/
def Truthful (w : VerifyWorld) : VerifyEvent → Prop
  | .lookup (.ok messages) => ∀ page afterSourceId counts,
      w.state = .looking page afterSourceId counts →
        messages = page.map fun mapping => w.archive.find? mapping.archiveMessageId
  | _ => True

/-- The mappings of a job: the ids Telegram gives messages are positive. -/
def mappings (w : VerifyWorld) : List ImportMapping :=
  w.map.rows.rows.filter fun row => 0 < row.sourceMessageId

/-- The mappings up to a source message. -/
def upTo (w : VerifyWorld) (afterSourceId : ℕ) : List ImportMapping :=
  w.map.rows.rows.filter fun row =>
    0 < row.sourceMessageId && row.sourceMessageId ≤ afterSourceId

/-- The page is what comes after the mappings that have been judged. -/
structure Turns (w : VerifyWorld) (afterSourceId : ℕ) (page : List ImportMapping) : Prop where
  nonempty : page ≠ []
  next : ∃ rest, page ++ rest =
    w.map.rows.rows.filter fun row => afterSourceId < row.sourceMessageId

variable {w : VerifyWorld}

theorem turns_list {afterSourceId : ℕ}
    (hne : w.map.listMappingsAfter afterSourceId w.batchSize ≠ []) :
    w.Turns afterSourceId (w.map.listMappingsAfter afterSourceId w.batchSize) :=
  ⟨hne, _, List.take_append_drop _ _⟩

/-- Nothing is left when the list is empty. -/
theorem upTo_of_list_eq_nil {afterSourceId : ℕ}
    (h : w.map.listMappingsAfter afterSourceId w.batchSize = []) :
    w.upTo afterSourceId = w.mappings := by
  refine List.filter_congr fun row hrow => ?_
  have hle := ImportMap.Queued.le_of_list_eq_nil h row hrow
  simp [hle]

/-- **A page is added to the mappings that have been judged.** -/
theorem Turns.upTo_append {afterSourceId : ℕ} {page : List ImportMapping}
    (h : w.Turns afterSourceId page) :
    w.upTo afterSourceId ++ page =
      w.upTo ((page.getLast?.map ImportMapping.sourceMessageId).getD afterSourceId) := by
  obtain ⟨rest, hnext⟩ := h.next
  obtain ⟨last, hlast⟩ : ∃ last, page.getLast? = some last :=
    ⟨_, List.getLast?_eq_some_getLast h.nonempty⟩
  obtain ⟨hpage, -⟩ := KeyedTable.filter_of_append w.map.rows.ordered hnext hlast
  have hbeyond : afterSourceId < last.sourceMessageId := by
    have hmem := List.mem_append_left rest (List.mem_of_getLast? hlast)
    rw [hnext] at hmem
    simpa using (List.mem_filter.1 hmem).2
  rw [hlast, Option.map_some, Option.getD_some]
  have hsplit := KeyedTable.filter_append_filter w.map.rows.ordered
    (fun row => 0 < row.sourceMessageId && row.sourceMessageId ≤ last.sourceMessageId) afterSourceId
  refine Eq.trans ?_ hsplit
  congr 1
  · refine List.filter_congr fun row _ => ?_
    rw [Bool.eq_iff_iff]
    simp only [Bool.and_eq_true, decide_eq_true_eq]
    omega
  · rw [← hpage]
    refine List.filter_congr fun row _ => ?_
    rw [Bool.eq_iff_iff]
    simp only [Bool.and_eq_true, decide_eq_true_eq]
    omega

/-- A page brings new mappings. -/
theorem Turns.notMem {afterSourceId : ℕ} {page : List ImportMapping}
    (h : w.Turns afterSourceId page) :
    ∀ mapping ∈ w.upTo afterSourceId, mapping ∉ page := by
  intro mapping hmem hpage
  obtain ⟨rest, hnext⟩ := h.next
  have hbeyond := List.mem_append_left rest hpage
  rw [hnext] at hbeyond
  have hlt := (List.mem_filter.1 hbeyond).2
  have hle := (List.mem_filter.1 hmem).2
  simp only [Bool.and_eq_true, decide_eq_true_eq] at hlt hle
  omega

/-- A page is judged by what the archive holds. -/
theorem zip_map_judge (sourceChannelId : ℤ) (archive : Channel) (page : List ImportMapping) :
    ((page.zip (page.map fun mapping => archive.find? mapping.archiveMessageId)).map
      fun p => p.1.judge sourceChannelId p.2) =
        page.map fun mapping => mapping.verdict sourceChannelId archive := by
  induction page with
  | nil => rfl
  | cons mapping page ih =>
      rw [List.map_cons, List.zip_cons_cons, List.map_cons, ih]
      rfl

/-! ### Every mapping is judged once -/

/-- What a pass has counted: the verdicts on the mappings up to where it stands, each given by the
archive of some moment of the run. -/
def Counted (start : VerifyWorld) (events : List VerifyEvent) (judged : List ImportMapping)
    (counts : ImportVerification) : Prop :=
  ∃ moment : ImportMapping → List VerifyEvent, (∀ mapping, moment mapping <+: events) ∧
    counts = .tally (judged.map fun mapping =>
      mapping.verdict start.sourceChannelId (Transition.run step start (moment mapping)).archive)

/-- The invariant of a pass. -/
def Stands (start : VerifyWorld) (events : List VerifyEvent) (w : VerifyWorld) : Prop :=
  match w.state with
  | .listing afterSourceId counts => Counted start events (w.upTo afterSourceId) counts
  | .looking page afterSourceId counts =>
      Counted start events (w.upTo afterSourceId) counts ∧ w.Turns afterSourceId page
  | .verified result => Counted start events w.mappings result
  | .failed _ => True

/-- What does not change in a run: the mapping and the source. -/
theorem step_frame (w : VerifyWorld) (event : VerifyEvent) :
    (w.step event).map = w.map ∧ (w.step event).sourceChannelId = w.sourceChannelId := by
  cases event with
  | list =>
      simp only [step, list]
      split
      · split <;> exact ⟨rfl, rfl⟩
      · exact ⟨rfl, rfl⟩
  | lookup answer =>
      simp only [step, lookup]
      split
      · split
        · exact ⟨rfl, rfl⟩
        · split <;> exact ⟨rfl, rfl⟩
      · exact ⟨rfl, rfl⟩
  | changed archive => exact ⟨rfl, rfl⟩

theorem run_frame (w : VerifyWorld) (events : List VerifyEvent) :
    (Transition.run step w events).map = w.map ∧
      (Transition.run step w events).sourceChannelId = w.sourceChannelId :=
  Transition.run_rel (I := fun _ => True)
    (R := fun w w' : VerifyWorld => w'.map = w.map ∧ w'.sourceChannelId = w.sourceChannelId)
    (fun _ => ⟨rfl, rfl⟩) (fun _ _ _ h h' => ⟨h'.1.trans h.1, h'.2.trans h.2⟩)
    (fun _ _ _ => trivial) (fun w event _ => step_frame w event) trivial events

variable {start : VerifyWorld} {events : List VerifyEvent} {judged : List ImportMapping}
  {counts : ImportVerification}

/-- What has been counted stays counted. -/
theorem Counted.snoc (h : Counted start events judged counts) (event : VerifyEvent) :
    Counted start (events ++ [event]) judged counts := by
  obtain ⟨moment, hmoment, hcounts⟩ := h
  exact ⟨moment, fun mapping => (hmoment mapping).trans (List.prefix_append _ _), hcounts⟩

/-- **A page is judged by the archive of the moment.** -/
theorem Counted.judge (h : Counted start events judged counts) {page : List ImportMapping}
    (hnew : ∀ mapping ∈ judged, mapping ∉ page) :
    Counted start events (judged ++ page) ((page.map fun mapping =>
      mapping.verdict start.sourceChannelId (Transition.run step start events).archive).foldl
        ImportVerification.record counts) := by
  obtain ⟨moment, hmoment, rfl⟩ := h
  refine ⟨fun mapping => if mapping ∈ page then events else moment mapping, fun mapping => ?_, ?_⟩
  · dsimp only
    split
    · exact List.prefix_rfl
    · exact hmoment mapping
  · rw [ImportVerification.foldl_record, List.map_append]
    congr 2
    · refine List.map_congr_left fun mapping hmem => ?_
      dsimp only
      rw [if_neg (hnew mapping hmem)]
    · refine List.map_congr_left fun mapping hmem => ?_
      dsimp only
      rw [if_pos hmem]

/-- **A step keeps the invariant.** -/
theorem Stands.step (h : Stands start events w) (hw : Transition.run step start events = w)
    {event : VerifyEvent} (htruthful : w.Truthful event) :
    Stands start (events ++ [event]) (w.step event) := by
  have hsource : w.sourceChannelId = start.sourceChannelId := hw ▸ (run_frame start events).2
  cases event with
  | list =>
      simp only [VerifyWorld.step, VerifyWorld.list]
      unfold Stands at h
      split at h
      · next afterSourceId counts hstate =>
          simp only [hstate]
          split
          · next hnil =>
              -- an empty page: every mapping has had its turn
              rw [upTo_of_list_eq_nil hnil] at h
              exact h.snoc _
          · next hne => exact ⟨h.snoc _, turns_list hne⟩
      · next hstate =>
          simp only [hstate, Stands]
          exact ⟨h.1.snoc _, h.2⟩
      · next hstate =>
          simp only [hstate, Stands]
          exact h.snoc _
      · next hstate =>
          simp only [hstate, Stands]
  | lookup answer =>
      simp only [VerifyWorld.step, VerifyWorld.lookup]
      unfold Stands at h
      split at h
      · next hstate =>
          simp only [hstate, Stands]
          exact h.snoc _
      · next page afterSourceId counts hstate =>
          obtain ⟨hcounted, hturns⟩ := h
          simp only [hstate]
          split
          · trivial
          · next messages =>
              have hmessages := htruthful page afterSourceId counts hstate
              split
              · trivial
              · subst hmessages
                -- the answer is that of the archive, so the page is judged as it stands now
                rw [zip_map_judge]
                have hjudged := hcounted.judge hturns.notMem
                rw [hturns.upTo_append, hw, ← hsource] at hjudged
                exact hjudged.snoc _
      · next hstate =>
          simp only [hstate, Stands]
          exact h.snoc _
      · next hstate =>
          simp only [hstate, Stands]
  | changed archive =>
      unfold Stands at h ⊢
      simp only [VerifyWorld.step]
      split at h
      · exact h.snoc _
      · exact ⟨h.1.snoc _, h.2.nonempty, h.2.next⟩
      · exact h.snoc _
      · trivial

/-- The invariant holds along a run. -/
theorem stands_run (sourceChannelId : ℤ) (map : ImportMap) (batchSize : ℤ) (archive : Channel)
    {events : List VerifyEvent}
    (htruthful : Transition.Along step Truthful (initial sourceChannelId map batchSize archive)
      events) :
    Stands (initial sourceChannelId map batchSize archive) events
      (Transition.run step (initial sourceChannelId map batchSize archive) events) := by
  induction events using List.reverseRecOn with
  | nil =>
      have hnone : (initial sourceChannelId map batchSize archive).upTo 0 = [] := by
        refine List.filter_eq_nil_iff.2 fun row _ => ?_
        simp only [Bool.and_eq_true, decide_eq_true_eq]
        omega
      refine ⟨fun _ => [], fun _ => List.prefix_rfl, ?_⟩
      rw [Transition.run_nil, hnone]
      rfl
  | append_singleton events event ih =>
      obtain ⟨htruthful, hevent⟩ := Transition.along_snoc.1 htruthful
      rw [Transition.run_snoc]
      exact (ih htruthful).step rfl hevent

/-- **Verification judges every mapping once.**  Whatever happens to the archive during a pass, a
pass that ends has given one verdict on every mapping of the job, each by the archive as it was at
some moment of the pass, and its result is the tally of the verdicts.  The command succeeds exactly
when every copy was in place when it was looked up. -/
theorem verification_judges_every_mapping_once (sourceChannelId : ℤ) (map : ImportMap)
    (batchSize : ℤ) (archive : Channel) (events : List VerifyEvent)
    (htruthful : Transition.Along step Truthful (initial sourceChannelId map batchSize archive)
      events) {result : ImportVerification}
    (hverified : (Transition.run step (initial sourceChannelId map batchSize archive)
      events).state = .verified result) :
    result.totalMappings = (initial sourceChannelId map batchSize archive).mappings.length ∧
      result.presentMessages + result.missingMessages + result.sourceMismatches =
        result.totalMappings ∧
      ∃ moment : ImportMapping → List VerifyEvent, (∀ mapping, moment mapping <+: events) ∧
        result = .tally ((initial sourceChannelId map batchSize archive).mappings.map fun mapping =>
          mapping.verdict sourceChannelId (Transition.run step
            (initial sourceChannelId map batchSize archive) (moment mapping)).archive) ∧
        (result.exitCode = 0 ↔ ∀ mapping ∈ (initial sourceChannelId map batchSize archive).mappings,
          mapping.verdict sourceChannelId (Transition.run step
            (initial sourceChannelId map batchSize archive) (moment mapping)).archive =
              .present) := by
  have hstands := stands_run sourceChannelId map batchSize archive htruthful
  have hmappings : (Transition.run step (initial sourceChannelId map batchSize archive)
      events).mappings = (initial sourceChannelId map batchSize archive).mappings := by
    rw [mappings, mappings, (run_frame _ events).1]
  unfold Stands at hstands
  simp only [hverified, hmappings] at hstands
  obtain ⟨moment, hmoment, rfl⟩ := hstands
  refine ⟨List.length_map _, ImportVerification.total_tally _, moment, hmoment, rfl, ?_⟩
  rw [ImportVerification.exitCode_tally, List.forall_mem_map]
  rfl

/-- The mapping of the two copies. -/
def twoMappings : ImportMap := (ImportMap.insertMappings .empty [(1, 8), (2, 9)]).1

/-- The second copy is deleted when the page of the first one has been judged. -/
def deletedBehindPage : List VerifyEvent :=
  [.list, .lookup (.ok [TransferWorld.twoCopies.head?]), .changed .empty, .list,
    .lookup (.ok [none]), .list]

theorem verification_judges_every_mapping_once_deleted :
    2 = (initial (-100) twoMappings 1
        (TransferWorld.twoCopies.foldl KeyedTable.insert .empty)).mappings.length ∧
      1 + 1 + 0 = 2 ∧
      ∃ moment : ImportMapping → List VerifyEvent,
        (∀ mapping, moment mapping <+: deletedBehindPage) ∧
        (⟨2, 1, 1, 0⟩ : ImportVerification) = .tally ((initial (-100) twoMappings 1
            (TransferWorld.twoCopies.foldl KeyedTable.insert .empty)).mappings.map fun mapping =>
          mapping.verdict (-100) (Transition.run step (initial (-100) twoMappings 1
            (TransferWorld.twoCopies.foldl KeyedTable.insert .empty)) (moment mapping)).archive) ∧
        ((⟨2, 1, 1, 0⟩ : ImportVerification).exitCode = 0 ↔
          ∀ mapping ∈ (initial (-100) twoMappings 1
            (TransferWorld.twoCopies.foldl KeyedTable.insert .empty)).mappings,
          mapping.verdict (-100) (Transition.run step (initial (-100) twoMappings 1
            (TransferWorld.twoCopies.foldl KeyedTable.insert .empty)) (moment mapping)).archive =
              .present) := by
  refine verification_judges_every_mapping_once (-100) twoMappings 1
    (TransferWorld.twoCopies.foldl KeyedTable.insert .empty) deletedBehindPage ?_ rfl
  refine ⟨trivial, ?_, trivial, trivial, ?_, trivial, trivial⟩
  · rintro page afterSourceId counts ⟨⟩
    rfl
  · rintro page afterSourceId counts ⟨⟩
    rfl

end VerifyWorld

/-! ### The copies a transfer has mapped -/

/-- The mappings a call has come upon and not recorded yet. -/
def TransferPhase.pairs : TransferPhase → List (ℕ × ℕ)
  | .scanning _ pending | .flushing _ pending | .settling pending => pending
  | .recording _ forwardedMappings _ => forwardedMappings
  | _ => []

namespace TransferWorld

variable {w : TransferWorld} {r : ImportRecord} {c : TransferCall}

/-- A copy of a film is a film, and a complete reply lists the copies in the order of the
request. -/
def Exact (w : TransferWorld) : TransferEvent → Prop
  | .forward request => ∀ c batch toForward rest floodRetries, w.call = some c →
      c.phase = .forwarding batch toForward rest floodRetries →
        (∀ m ∈ request.accepted, isImportable (some m)) ∧
        ∀ copies, request.reply = .messages copies → copies.length = toForward.length →
          ∀ p ∈ toForward.zip copies, ∀ m, p.2 = some m → w.source? m = some p.1.id
  | _ => True

/-- Every mapping is that of a copy in the archive, and the copies can be imported. -/
structure Genuine (w : TransferWorld) : Prop where
  importable : ∀ m ∈ w.archive, (w.source? m).isSome → isImportable (some m)
  rows : ∀ r, w.record = some r →
    ∀ row ∈ r.map.rows, w.Copies row.sourceMessageId row.archiveMessageId
  pairs : ∀ c, w.call = some c → ∀ p ∈ c.phase.pairs, w.Copies p.1 p.2

theorem Genuine.commit (hw : w.Genuine) {record : Option ImportRecord} {call : Option TransferCall}
    (hrows : ∀ r, record = some r →
      ∀ row ∈ r.map.rows, w.Copies row.sourceMessageId row.archiveMessageId)
    (hpairs : ∀ c, call = some c → ∀ p ∈ c.phase.pairs, w.Copies p.1 p.2) :
    Genuine { w with record, call } :=
  ⟨hw.importable, hrows, hpairs⟩

theorem Genuine.stop (hw : w.Genuine) : w.stop.Genuine :=
  hw.commit hw.rows fun _ h => by cases h

theorem Genuine.goTo (hw : w.Genuine) {phase : TransferPhase}
    (hpairs : ∀ p ∈ phase.pairs, w.Copies p.1 p.2) : (w.goTo c phase).Genuine := by
  refine hw.commit hw.rows fun c' hc' => ?_
  obtain rfl := Option.some.inj hc'
  exact hpairs

/-- The mapping is left as it is. -/
theorem Genuine.commit_job (hw : w.Genuine) (hr : w.record = some r) {job : ImportJob}
    {call : Option TransferCall} (hpairs : ∀ c, call = some c → c.phase.pairs = []) :
    Genuine { w with record := some { r with job }, call } := by
  refine hw.commit (fun r' hr' => ?_) fun c' hc' p hp => ?_
  · obtain rfl := Option.some.inj hr'
    exact hw.rows r hr
  · rw [hpairs c' hc'] at hp
    cases hp

/-- Copies are recorded. -/
theorem Genuine.commit_mappings (hw : w.Genuine) (hr : w.record = some r) {r' : ImportRecord}
    {p : List (ℕ × ℕ)} (hmap : r'.map = (r.map.insertMappings p).1)
    (hmappings : ∀ q ∈ p, w.Copies q.1 q.2) {call : Option TransferCall}
    (hpairs : ∀ c, call = some c → c.phase.pairs = []) :
    Genuine { w with record := some r', call } := by
  refine hw.commit (fun r'' hr'' row hrow => ?_) fun c' hc' q hq => ?_
  · obtain rfl := Option.some.inj hr''
    rw [hmap] at hrow
    rcases ImportMap.mem_of_mem_insertMappings hrow with hrow | hrow
    · exact hw.rows r hr row hrow
    · exact hmappings _ hrow
  · rw [hpairs c' hc'] at hq
    cases hq

theorem Genuine.openJob (hw : w.Genuine) : (w.openJob c).Genuine := by
  have hrows : ∀ row ∈ (w.record.getD ⟨{}, .empty⟩).map.rows,
      w.Copies row.sourceMessageId row.archiveMessageId := by
    cases hrecord : w.record with
    | none => exact fun _ h => (by cases h)
    | some r => exact hw.rows r hrecord
  unfold TransferWorld.openJob
  dsimp only
  generalize w.record.getD ⟨{}, .empty⟩ = r at hrows ⊢
  have hgo : ∀ call : Option TransferCall, (∀ c, call = some c → c.phase.pairs = []) →
      Genuine { w with record := some r, call } := by
    intro call hpairs
    refine hw.commit (fun r' hr' => ?_) fun c' hc' p hp => ?_
    · obtain rfl := Option.some.inj hr'
      exact hrows
    · rw [hpairs c' hc'] at hp
      cases hp
  split
  · exact hgo none fun _ h => by cases h
  · exact hgo none fun _ h => by cases h
  · refine hgo (some _) fun c' hc' => ?_
    obtain rfl := Option.some.inj hc'
    dsimp only
    split <;> rfl

/-- What the tail scan takes for a copy is one. -/
theorem Genuine.scan (hw : w.Genuine) {cursor : ℕ} {pending : List (ℕ × ℕ)}
    (hpending : ∀ p ∈ pending, w.Copies p.1 p.2) : (w.scan c cursor pending).Genuine := by
  unfold TransferWorld.scan
  split
  · split
    · exact hw.goTo fun _ h => by cases h
    · exact hw.goTo hpending
  · next m hnext =>
      have hmem : m ∈ w.archive := (nextArchiveMessage?_eq_some hnext).1
      split
      · exact hw.goTo hpending
      · next s hsource =>
          have hpending' : ∀ p ∈ pending ++ [(s, m.id)], w.Copies p.1 p.2 := by
            intro p hp
            rcases List.mem_append.1 hp with hp | hp
            · exact hpending p hp
            · obtain rfl := List.mem_singleton.1 hp
              exact ⟨m, hmem, rfl, hsource⟩
          split
          · exact hw.goTo hpending
          · dsimp only
            split
            · exact hw.goTo hpending'
            · exact hw.goTo hpending'

theorem Genuine.nextBatch (hw : w.Genuine) {rest : List TelegramMessage} :
    (w.nextBatch c r rest).Genuine := by
  unfold TransferWorld.nextBatch
  split
  · exact hw.goTo fun _ h => by cases h
  · split
    · exact hw.goTo fun _ h => by cases h
    · dsimp only
      split <;> exact hw.goTo fun _ h => by cases h

theorem Genuine.recordBatch (hw : w.Genuine) (hr : w.record = some r)
    {batch rest : List TelegramMessage} {forwardedMappings : List (ℕ × ℕ)}
    (hmappings : ∀ p ∈ forwardedMappings, w.Copies p.1 p.2) :
    (w.recordBatch c r batch forwardedMappings rest).Genuine := by
  unfold TransferWorld.recordBatch
  split
  · exact hw.stop
  · next last _ =>
      refine hw.commit_mappings (p := forwardedMappings) hr ?_ hmappings fun c' hc' => ?_
      · simp only [ImportRecord.recordTransferBatch]
        split <;> rfl
      · obtain rfl := Option.some.inj hc'
        rfl

theorem Genuine.recordFailure (hw : w.Genuine) (hr : w.record = some r) {failure : ImportFailure} :
    (w.recordFailure r failure).Genuine := by
  unfold TransferWorld.recordFailure
  dsimp only
  split
  · exact hw.commit_job hr fun _ h => by cases h
  · exact hw.stop

theorem Genuine.advanceOpened (hw : w.Genuine) (hcall : w.call = some c) (hr : w.record = some r)
    (now : Instant) : (w.advanceOpened c r now).Genuine := by
  have hpairs := hw.pairs c hcall
  cases hphase : c.phase with
  | opening | forwarding =>
      simp only [TransferWorld.advanceOpened, hphase]
      exact hw
  | measuring =>
      simp only [TransferWorld.advanceOpened, hphase]
      exact hw.goTo fun _ h => by cases h
  | initializing sourceHigh archiveBaseline total =>
      simp only [TransferWorld.advanceOpened, hphase]
      refine hw.commit_job hr fun c' hc' => ?_
      obtain rfl := Option.some.inj hc'
      rfl
  | seeking =>
      simp only [TransferWorld.advanceOpened, hphase]
      exact hw.goTo fun _ h => by cases h
  | scanning cursor pending =>
      rw [hphase] at hpairs
      simp only [TransferWorld.advanceOpened, hphase]
      exact hw.scan hpairs
  -- the pending pairs are recorded, and each of them is a copy of its source
  | flushing cursor pending | settling pending =>
      rw [hphase] at hpairs
      simp only [TransferWorld.advanceOpened, hphase]
      refine hw.commit_mappings (p := pending) hr rfl hpairs fun c' hc' => ?_
      obtain rfl := Option.some.inj hc'
      rfl
  | running =>
      simp only [TransferWorld.advanceOpened, hphase]
      split
      · refine hw.commit_job hr fun c' hc' => ?_
        obtain rfl := Option.some.inj hc'
        rfl
      · exact hw.stop
  | batching rest =>
      simp only [TransferWorld.advanceOpened, hphase]
      exact hw.nextBatch
  | recording batch forwardedMappings rest =>
      rw [hphase] at hpairs
      simp only [TransferWorld.advanceOpened, hphase]
      exact hw.recordBatch hr hpairs
  | finishing =>
      simp only [TransferWorld.advanceOpened, hphase]
      split
      · exact hw.commit_job hr fun _ h => by cases h
      · exact hw.stop
  | failing failure =>
      simp only [TransferWorld.advanceOpened, hphase]
      exact hw.recordFailure hr

/-- More is posted in the archive. -/
theorem Genuine.of_posted (hw : w.Genuine) {archive : Channel} (hold : ∀ m ∈ w.archive, m ∈ archive)
    (hnew : ∀ m ∈ archive, m ∈ w.archive ∨ ((w.source? m).isSome → isImportable (some m)))
    {call : Option TransferCall} (hcall : ∀ c, call = some c → w.call = some c) :
    Genuine { w with archive, call } := by
  have hcopies : ∀ s a, w.Copies s a → Copies { w with archive, call } s a :=
    fun s a ⟨m, hm, hid, hsource⟩ => ⟨m, hold m hm, hid, hsource⟩
  refine ⟨fun m hm hsource => ?_, fun r hr row hrow => hcopies _ _ (hw.rows r hr row hrow),
    fun c hc p hp => hcopies _ _ (hw.pairs c (hcall c hc) p hp)⟩
  rcases hnew m hm with hm | himportable
  · exact hw.importable m hm hsource
  · exact himportable hsource

/-- **The reply to a request is paired with the request.** -/
theorem Genuine.takeForwarded {toForward batch rest : List TelegramMessage}
    {request : ForwardRequest} {forwarded : List (Option TelegramMessage)}
    (haccepts : w.Accepts toForward request) (hreply : request.reply = .messages forwarded)
    (hexact : forwarded.length = toForward.length →
      ∀ p ∈ toForward.zip forwarded, ∀ m, p.2 = some m → w.source? m = some p.1.id)
    (hw' : (w.accept request.accepted).Genuine) :
    ((w.accept request.accepted).takeForwarded c batch toForward rest forwarded).Genuine := by
  unfold TransferWorld.takeForwarded
  split
  · exact hw'.goTo fun _ h => by cases h
  · next hcomplete =>
      simp only [ne_eq, Bool.or_eq_true, decide_eq_true_eq, not_or, Decidable.not_not,
        Bool.not_eq_true] at hcomplete
      obtain ⟨hlength, hcomplete⟩ := hcomplete
      obtain ⟨copies, rfl⟩ := exists_map_some hcomplete
      have hcopies : (copies.map some).filterMap id = copies := by simp
      dsimp only
      rw [hcopies]
      split
      · exact hw'.goTo fun _ h => by cases h
      · refine hw'.goTo fun p hp => ?_
        have hp : p ∈ (toForward.map TelegramMessage.id).zip (copies.map TelegramMessage.id) := hp
        rw [List.zip_map] at hp
        obtain ⟨⟨x, m⟩, hmem, rfl⟩ := List.mem_map.1 hp
        have hm : m ∈ request.accepted :=
          haccepts.replied _ hreply m (List.mem_map_of_mem (List.of_mem_zip hmem).2)
        refine ⟨m, haccepts.mem_archive.2 (.inr hm), rfl, ?_⟩
        refine hexact hlength (x, some m) ?_ m rfl
        rw [List.zip_map_right]
        exact List.mem_map.2 ⟨(x, m), hmem, rfl⟩

theorem Genuine.forward (hw : w.Genuine) {request : ForwardRequest}
    (hfaithful : w.Faithful (.forward request)) (hexact : w.Exact (.forward request)) :
    (w.forward request).Genuine := by
  unfold TransferWorld.forward
  split
  · exact hw
  · next c hcall =>
      split
      · next batch toForward rest floodRetries hphase =>
          have haccepts := hfaithful c batch toForward rest floodRetries hcall hphase
          obtain ⟨himportable, hordered⟩ := hexact c batch toForward rest floodRetries hcall hphase
          have hw' : (w.accept request.accepted).Genuine :=
            hw.of_posted (fun m hm => haccepts.mem_archive.2 (.inl hm))
              (fun m hm => (haccepts.mem_archive.1 hm).imp_right fun hm _ => himportable m hm)
              (fun _ h => by cases h)
          dsimp only
          split
          · next forwarded houtcome =>
              have hreply := ForwardReply.outcome_eq_returned houtcome
              exact Genuine.takeForwarded haccepts hreply (hordered _ hreply) hw'
          · exact hw'.goTo fun _ h => by cases h
          · exact hw'.goTo fun _ h => by cases h
      · exact hw

/-- **Every step keeps the mapping genuine.** -/
theorem Genuine.step (hw : w.Genuine) {event : TransferEvent} (hfaithful : w.Faithful event)
    (hexact : w.Exact event) : (w.step event).Genuine := by
  cases event with
  | start batchSize floodWaitLimit resolved =>
      simp only [TransferWorld.step, TransferWorld.startCall]
      split
      · exact hw
      · split
        · refine hw.commit hw.rows fun c hc => ?_
          obtain rfl := Option.some.inj hc
          exact fun _ h => by cases h
        · exact hw
  | advance now =>
      simp only [TransferWorld.step, TransferWorld.advance]
      split
      · exact hw
      · next c hcall =>
          split
          · exact hw.openJob
          · next r hr _ => exact hw.advanceOpened hcall hr now
          · exact hw.stop
  | forward request => exact hw.forward hfaithful hexact
  | raised failure =>
      simp only [TransferWorld.step, TransferWorld.raise]
      split
      · exact hw
      · split
        · exact hw.goTo fun _ h => by cases h
        · exact hw.stop
  | posted message =>
      obtain ⟨hnocopy, hlast⟩ := hfaithful
      refine hw.of_posted (fun m hm => (mem_insert_archive hlast).2 (.inr hm)) (fun m hm => ?_)
        fun _ h => h
      rcases (mem_insert_archive hlast).1 hm with rfl | hm
      · refine .inr fun hsource => ?_
        rw [hnocopy] at hsource
        cases hsource
      · exact .inl hm
  | crash => exact hw.stop

/-- The copy of a genuine mapping is found. -/
theorem Genuine.verdict_eq (hw : w.Genuine) (hr : w.record = some r) {row : ImportMapping}
    (hrow : row ∈ r.map.rows) : row.verdict w.sourceChannelId w.archive = .present := by
  obtain ⟨m, hm, hid, hsource⟩ := hw.rows r hr row hrow
  have himportable : isImportable (some m) := hw.importable m hm (by rw [hsource]; rfl)
  have hfind : w.archive.find? row.archiveMessageId = some m := hid ▸ KeyedTable.find?_of_mem hm
  have hsource : m.forwardedSourceMessageId? w.sourceChannelId = some row.sourceMessageId := hsource
  rw [ImportMapping.verdict, hfind, ImportMapping.judge, himportable, hsource]
  simp

end TransferWorld

/-! ### A pass that is left alone -/

namespace VerifyWorld

variable {w : VerifyWorld}

/-- The pass takes its next step, and nobody changes the archive. -/
def Undisturbed (w : VerifyWorld) (event : VerifyEvent) : Prop :=
  match w.state with
  | .looking page _ _ =>
      event = .lookup (.ok (page.map fun mapping => w.archive.find? mapping.archiveMessageId))
  | _ => event = .list

/-- The mappings that a pass has still to list. -/
def unlisted (w : VerifyWorld) (afterSourceId : ℕ) : List ImportMapping :=
  w.map.rows.rows.filter fun row => afterSourceId < row.sourceMessageId

/-- A bound on the steps that are left of a pass. -/
def stepsLeft (w : VerifyWorld) : ℕ :=
  match w.state with
  | .listing afterSourceId _ => 2 * (w.unlisted afterSourceId).length + 1
  | .looking _ afterSourceId _ => 2 * (w.unlisted afterSourceId).length
  | _ => 0

/-- The pass goes on, with a page that comes next. -/
def OnCourse (w : VerifyWorld) : Prop :=
  match w.state with
  | .looking page afterSourceId _ => w.Turns afterSourceId page
  | .failed _ => False
  | _ => True

theorem Undisturbed.truthful {event : VerifyEvent} (h : w.Undisturbed event) :
    w.Truthful event := by
  unfold Undisturbed at h
  split at h
  · next page afterSourceId counts hstate =>
      subst h
      intro page' afterSourceId' counts' hstate'
      cases hstate.symm.trans hstate'
      rfl
  · subst h
    trivial

/-- A page leaves fewer mappings to list. -/
theorem Turns.length_unlisted_lt {afterSourceId : ℕ} {page : List ImportMapping}
    (h : w.Turns afterSourceId page) :
    (w.unlisted ((page.getLast?.map ImportMapping.sourceMessageId).getD afterSourceId)).length + 1 ≤
      (w.unlisted afterSourceId).length := by
  obtain ⟨rest, hnext⟩ := h.next
  obtain ⟨last, hlast⟩ : ∃ last, page.getLast? = some last :=
    ⟨_, List.getLast?_eq_some_getLast h.nonempty⟩
  have hmem : last ∈ w.unlisted afterSourceId := by
    rw [unlisted, ← hnext]
    exact List.mem_append_left rest (List.mem_of_getLast? hlast)
  have hbeyond : afterSourceId < last.sourceMessageId := by
    simpa using (List.mem_filter.1 hmem).2
  have hsplit : w.unlisted last.sourceMessageId =
      (w.unlisted afterSourceId).filter fun row => last.sourceMessageId < row.sourceMessageId := by
    unfold unlisted
    rw [List.filter_filter]
    refine List.filter_congr fun row _ => ?_
    rw [Bool.eq_iff_iff]
    simp only [Bool.and_eq_true, decide_eq_true_eq]
    omega
  rw [hlast, Option.map_some, Option.getD_some, hsplit]
  exact List.length_filter_lt_length_iff_exists.2 ⟨last, hmem, by simp⟩

/-- **A step of a pass that is left alone.** -/
theorem OnCourse.step (h : w.OnCourse) {event : VerifyEvent} (hundisturbed : w.Undisturbed event) :
    (w.step event).OnCourse ∧ (w.step event).archive = w.archive ∧
      (w.step event).stepsLeft ≤ w.stepsLeft - 1 := by
  unfold OnCourse at h
  unfold Undisturbed at hundisturbed
  split at hundisturbed
  · next page afterSourceId counts hstate =>
      subst hundisturbed
      simp only [hstate] at h
      have hlt := h.length_unlisted_lt
      simp only [VerifyWorld.step, lookup, hstate, List.length_map, ne_eq, not_true_eq_false,
        if_false]
      refine ⟨trivial, trivial, ?_⟩
      simp only [stepsLeft, hstate]
      unfold unlisted at hlt ⊢
      dsimp only
      omega
  · next hnot =>
      subst hundisturbed
      simp only [VerifyWorld.step, list]
      cases hstate : w.state with
      | listing afterSourceId counts =>
          dsimp only
          split
          · exact ⟨trivial, rfl, Nat.zero_le _⟩
          · next hne =>
              refine ⟨turns_list hne, rfl, ?_⟩
              simp only [stepsLeft, hstate]
              exact le_refl _
      | looking page afterSourceId counts => exact absurd hstate (hnot _ _ _)
      | verified result =>
          simp only [OnCourse, stepsLeft, hstate]
          exact ⟨trivial, trivial, le_refl _⟩
      | failed failure =>
          rw [hstate] at h
          exact h.elim

/-- A pass that is left alone for long enough has ended, with the archive as it was. -/
theorem OnCourse.run (h : w.OnCourse) {pass : List VerifyEvent}
    (hundisturbed : Transition.Along VerifyWorld.step Undisturbed w pass) :
    (Transition.run VerifyWorld.step w pass).OnCourse ∧
      (Transition.run VerifyWorld.step w pass).archive = w.archive ∧
      (Transition.run VerifyWorld.step w pass).stepsLeft ≤ w.stepsLeft - pass.length := by
  induction pass generalizing w with
  | nil => exact ⟨h, rfl, le_refl _⟩
  | cons event pass ih =>
      obtain ⟨h', harchive, hstep⟩ := h.step hundisturbed.1
      obtain ⟨hcourse, harchive', hleft⟩ := ih h' hundisturbed.2
      refine ⟨hcourse, harchive'.trans harchive, hleft.trans ?_⟩
      rw [List.length_cons]
      omega

/-- A pass on course with no steps left has ended. -/
theorem OnCourse.exists_verified (h : w.OnCourse) (hleft : w.stepsLeft = 0) :
    ∃ result, w.state = .verified result := by
  cases hstate : w.state with
  | listing afterSourceId counts => simp [stepsLeft, hstate] at hleft
  | looking page afterSourceId counts =>
      simp only [OnCourse, hstate] at h
      have hlt := h.length_unlisted_lt
      simp only [stepsLeft, hstate] at hleft
      omega
  | verified result => exact ⟨result, rfl⟩
  | failed failure => simp [OnCourse, hstate] at h

end VerifyWorld

namespace TransferWorld

/-- **A transfer is verified.**  In every state of every run of calls, interruptions and crashes
whose requests Telegram answers exactly, a verification of the job that is left alone ends within
two steps a mapping, finds every copy in its place and exits with 0. -/
theorem transfer_is_verified (sourceChannelId : ℤ) (history archive : Channel)
    (events : List TransferEvent)
    (hinitial : ∀ m ∈ archive, m.forwardedSourceMessageId? sourceChannelId = none)
    (hfaithful : Transition.Along step Faithful (initial sourceChannelId history archive) events)
    (hexact : Transition.Along step Exact (initial sourceChannelId history archive) events)
    {w : TransferWorld}
    (hw : Transition.run step (initial sourceChannelId history archive) events = w)
    {r : ImportRecord} (hr : w.record = some r) (batchSize : ℤ) {pass : List VerifyEvent}
    (hundisturbed : Transition.Along VerifyWorld.step VerifyWorld.Undisturbed
      (.initial w.sourceChannelId r.map batchSize w.archive) pass)
    (hlong : 2 * r.map.count < pass.length) :
    ∃ result, (Transition.run VerifyWorld.step
        (.initial w.sourceChannelId r.map batchSize w.archive) pass).state = .verified result ∧
      result.exitCode = 0 ∧ result.totalMappings = r.job.copiedMessages ∧
        result.presentMessages = r.job.copiedMessages := by
  obtain ⟨hsound, hbalanced, hgenuine⟩ : w.Sound ∧ w.Balanced ∧ w.Genuine := by
    have hempty : (initial sourceChannelId history archive).Genuine := by
      refine ⟨fun m hm hsource => ?_, fun _ h => (by cases h), fun _ h => (by cases h)⟩
      have hnone : (initial sourceChannelId history archive).source? m = none := hinitial m hm
      rw [hnone] at hsource
      cases hsource
    exact hw ▸ Transition.run_invariant_along (I := fun w => w.Sound ∧ w.Balanced ∧ w.Genuine)
      (fun _ _ hw h => ⟨hw.1.step h.1, hw.2.1.step hw.1 h.1, hw.2.2.step h.1 h.2⟩)
      ⟨sound_initial hinitial, ⟨fun _ h => (by cases h), fun _ h => (by cases h)⟩, hempty⟩
      (hfaithful.and hexact)
  have hcourse : (VerifyWorld.initial w.sourceChannelId r.map batchSize w.archive).OnCourse :=
    trivial
  have hmappings : (VerifyWorld.initial w.sourceChannelId r.map batchSize w.archive).mappings =
      r.map.rows.rows := by
    refine List.filter_eq_self.2 fun row hrow => ?_
    obtain ⟨m, -, hid, himportable, -⟩ := (hbalanced.accounted r hr).mapped row hrow
    rw [← hid]
    exact decide_eq_true (pos_of_isImportable himportable)
  -- the pass ends
  obtain ⟨hended, -, hleft⟩ := hcourse.run hundisturbed
  have hsteps : (VerifyWorld.initial w.sourceChannelId r.map batchSize w.archive).stepsLeft =
      2 * r.map.count + 1 := by
    have hunlisted : (VerifyWorld.initial w.sourceChannelId r.map batchSize w.archive).unlisted 0 =
        r.map.rows.rows := hmappings
    simp only [VerifyWorld.stepsLeft, VerifyWorld.initial] at hunlisted ⊢
    rw [hunlisted]
    rfl
  obtain ⟨result, hverified⟩ := hended.exists_verified (by omega)
  -- its verdicts are those of the archive as it was
  have hstands := VerifyWorld.stands_run w.sourceChannelId r.map batchSize w.archive
    (hundisturbed.imp fun _ _ h => h.truthful)
  have hmappings' : (Transition.run VerifyWorld.step
      (.initial w.sourceChannelId r.map batchSize w.archive) pass).mappings = r.map.rows.rows := by
    rw [VerifyWorld.mappings, (VerifyWorld.run_frame _ pass).1]
    exact hmappings
  unfold VerifyWorld.Stands at hstands
  simp only [hverified, hmappings'] at hstands
  obtain ⟨moment, hmoment, hresult⟩ := hstands
  have hpresent : ∀ row ∈ r.map.rows.rows, row.verdict w.sourceChannelId (Transition.run
      VerifyWorld.step (.initial w.sourceChannelId r.map batchSize w.archive)
        (moment row)).archive = .present := by
    intro row hrow
    obtain ⟨-, harchive, -⟩ := hcourse.run (hundisturbed.of_prefix (hmoment row))
    rw [harchive]
    exact hgenuine.verdict_eq hr hrow
  have hverdicts : result = .tally (List.replicate r.map.count .present) := by
    rw [hresult]
    exact congrArg ImportVerification.tally
      ((List.map_congr_left hpresent).trans List.map_const')
  have hcounted : r.job.copiedMessages = r.map.count := (hsound.recorded r hr).counted
  refine ⟨result, hverified, ?_, ?_, ?_⟩
  · rw [hverdicts, ImportVerification.exitCode_tally]
    exact fun verdict hverdict => List.eq_of_mem_replicate hverdict
  · rw [hverdicts, hcounted]
    exact List.length_replicate
  · rw [hverdicts, hcounted]
    exact List.count_replicate_self

/-- Telegram answers the requests of `recoveredTransfer` exactly. -/
theorem exact_recoveredTransfer :
    Transition.Along step Exact (initial (-100) twoMessages .empty) recoveredTransfer := by
  have hrequest : (Transition.run step (initial (-100) twoMessages .empty) firstCall).Exact
      (.forward ⟨twoCopies, .messages (twoCopies.map some)⟩) := by
    intro c batch toForward rest floodRetries hcall hphase
    have hrequest : ((Transition.run step (initial (-100) twoMessages .empty) firstCall).call.map
        TransferCall.phase) = some (.forwarding twoMessages.rows twoMessages.rows [] 0) := rfl
    rw [hcall, Option.map_some, hphase] at hrequest
    cases hrequest
    refine ⟨by decide, ?_⟩
    rintro copies ⟨⟩ -
    decide
  unfold recoveredTransfer crashAfterForward
  rw [Transition.along_append, Transition.along_append]
  refine ⟨⟨?_, hrequest, trivial, trivial⟩, ?_⟩
  · simp [firstCall, Transition.along_cons, Exact]
  · simp [Transition.along_cons, Exact]

/-- A pass over the two copies, a page for each. -/
def twoPages : List VerifyEvent :=
  [.list, .lookup (.ok [twoCopies.head?]), .list, .lookup (.ok [twoCopies.getLast?]), .list]

/-- The transfer that was taken up after a crash is verified. -/
theorem transfer_is_verified_recovered :
    ∃ r, (Transition.run step (initial (-100) twoMessages .empty) recoveredTransfer).record =
      some r ∧
      r.map.count = 2 ∧ ∃ result, (Transition.run VerifyWorld.step (.initial (-100) r.map 1
          (Transition.run step (initial (-100) twoMessages .empty) recoveredTransfer).archive)
            twoPages).state = .verified result ∧
        result.exitCode = 0 ∧ result.totalMappings = r.job.copiedMessages ∧
          result.presentMessages = r.job.copiedMessages := by
  refine ⟨_, rfl, rfl, transfer_is_verified (-100) twoMessages .empty recoveredTransfer
    (fun _ h => (by cases h)) faithful_recoveredTransfer exact_recoveredTransfer rfl rfl 1
    ⟨rfl, rfl, rfl, rfl, rfl, trivial⟩ (by decide +kernel)⟩

end TransferWorld
end CineGate
