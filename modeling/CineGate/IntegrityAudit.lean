/-
**The audit of the archive references.**

`services/archive_integrity.py`.  The audit reads two watermarks and then walks through the posters
and the files, page by page in the order of their ids, and asks Telegram for the message of each
row.  Between its queries any other transaction may change the tables.

* `IntegrityAudit`, `AuditLoop` — the settings, and one of the two loops;
* `AuditWorld`, `AuditWorld.step` — the audit among the other transactions;
* `AuditLoop.Sound` — what the loops keep, whatever the others do;
* `AuditLoop.Covers` — what they keep about a row that is indexed throughout;
* `AuditWorld.Traced` — which transactions the variables of a loop come from;
* `audit_counts_once` — the audit ends and counts each row once.
-/

import CineGate.ArchiveTables
import CineGate.ImportJobs
import CineGate.Transition

set_option relaxedAutoImplicit false
set_option autoImplicit false

namespace CineGate

/-- The `kind` of a reference. -/
inductive ReferenceKind
  | poster
  | quality
deriving DecidableEq, Repr

structure MissingArchiveReference where
  kind : ReferenceKind
  rowId : ℕ
  archiveMessageId : ℕ
deriving DecidableEq, Repr

structure ArchiveIntegrityReport where
  checkedPosters : ℕ
  checkedQualities : ℕ
  missingPosters : ℕ
  missingQualities : ℕ
  missingExamples : List MissingArchiveReference
deriving DecidableEq, Repr

/-- The settings of `ArchiveIntegrityAuditService`, as `__init__` accepts them. -/
structure IntegrityAudit where
  batchSize : ℕ := 100
  exampleLimit : ℕ := 20
  batchSize_bounds : 1 ≤ batchSize ∧ batchSize ≤ 500 := by decide
  exampleLimit_bounds : 1 ≤ exampleLimit ∧ exampleLimit ≤ 100 := by decide

/-- `__init__`, or the text of its `ValueError`. -/
def IntegrityAudit.init (batchSize exampleLimit : ℤ) : Except String IntegrityAudit :=
  if hbatch : 1 ≤ batchSize ∧ batchSize ≤ 500 then
    if hexample : 1 ≤ exampleLimit ∧ exampleLimit ≤ 100 then
      .ok {
        batchSize := batchSize.toNat
        exampleLimit := exampleLimit.toNat
        batchSize_bounds := by omega
        exampleLimit_bounds := by omega }
    else .error "example_limit must be between 1 and 100"
  else .error "batch_size must be between 1 and 500"

/-- Every audit is accepted by `__init__`. -/
theorem IntegrityAudit.init_self (audit : IntegrityAudit) :
    IntegrityAudit.init audit.batchSize audit.exampleLimit = .ok audit := by
  obtain ⟨hbatch, hbatch'⟩ := audit.batchSize_bounds
  obtain ⟨hexample, hexample'⟩ := audit.exampleLimit_bounds
  unfold IntegrityAudit.init
  rw [dif_pos ⟨by omega, by omega⟩, dif_pos ⟨by omega, by omega⟩]
  rfl

/-- The id of a row, and the id of its message in the archive. -/
structure AuditRow where
  id : ℕ
  messageId : ℕ
deriving DecidableEq, Repr

/-- What a loop does next: it reads a page, looks its messages up, or has stopped. -/
inductive AuditPhase
  | reading
  | lookingUp (rows : List AuditRow)
  | stopped
deriving DecidableEq, Repr

/-- The variables of `_audit_posters` and `_audit_qualities`.  `pages` counts the pages that are
read, and `seen` keeps the rows that are checked, with the messages they had: no other part reads
them. -/
structure AuditLoop where
  kind : ReferenceKind
  channelId : ℤ
  highWatermark : ℕ
  afterId : ℕ := 0
  checked : ℕ := 0
  missing : ℕ := 0
  examples : List MissingArchiveReference := []
  phase : AuditPhase := .reading
  pages : ℕ := 0
  seen : List (AuditRow × Option TelegramMessage) := []

/-- `_is_available_telegram_message`. -/
def isAvailable : Option TelegramMessage → Bool
  | none => false
  | some message => !message.isEmptyOrService && 0 < message.id

/-- The movie is indexed, in the archive channel. -/
def Movie.isAudited (movie : Movie) (channelId : ℤ) : Bool :=
  movie.archiveChannelId = channelId && movie.status = .indexed

/-- The rows of a kind that are indexed, in the order of their ids. -/
def ArchiveTables.indexedRows (tables : ArchiveTables) (channelId : ℤ) :
    ReferenceKind → List AuditRow
  | .poster =>
      (tables.movies.rows.filter fun movie => movie.isAudited channelId).map fun movie =>
        ⟨movie.id, movie.posterMessageId⟩
  | .quality =>
      (tables.qualities.rows.filter fun row =>
        (tables.movies.find? row.movieId).any fun movie => movie.isAudited channelId).map fun row =>
          ⟨row.id, row.archiveMessageId⟩

/-- `_high_watermarks`, for one kind: the largest id, or 0. -/
def ArchiveTables.highWatermark (tables : ArchiveTables) (channelId : ℤ) (kind : ReferenceKind) :
    ℕ :=
  ((tables.indexedRows channelId kind).map AuditRow.id).foldr max 0

namespace AuditLoop

/-- The query of a loop. -/
def page (loop : AuditLoop) (audit : IntegrityAudit) (tables : ArchiveTables) : List AuditRow :=
  ((tables.indexedRows loop.channelId loop.kind).filter fun row =>
    loop.afterId < row.id && row.id ≤ loop.highWatermark).take audit.batchSize

/-- A page is read; an empty one ends the loop. -/
def read (loop : AuditLoop) (audit : IntegrityAudit) (tables : ArchiveTables) : AuditLoop :=
  { loop with
    pages := loop.pages + 1
    phase := if loop.page audit tables = [] then .stopped else .lookingUp (loop.page audit tables) }

/-- A row is checked. -/
def checkRow (audit : IntegrityAudit) (loop : AuditLoop)
    (row : AuditRow × Option TelegramMessage) : AuditLoop :=
  let loop := { loop with checked := loop.checked + 1, seen := loop.seen ++ [row] }
  if isAvailable row.2 then loop
  else
    { loop with
      missing := loop.missing + 1
      examples :=
        if loop.examples.length < audit.exampleLimit then
          loop.examples ++ [⟨loop.kind, row.1.id, row.1.messageId⟩]
        else loop.examples }

/-- The rows of a page are checked, and the next page starts after the last one of them. -/
def checkPage (loop : AuditLoop) (audit : IntegrityAudit) (rows : List AuditRow)
    (messages : List (Option TelegramMessage)) : AuditLoop :=
  { (rows.zip messages).foldl (checkRow audit) loop with
    afterId := (rows.getLast?.map AuditRow.id).getD loop.afterId
    phase := .reading }

end AuditLoop

/-- The tables, and the audit: the channel it has resolved, its two loops once their watermarks are
read, and the exception it has raised. -/
structure AuditWorld where
  tables : ArchiveTables
  channelId : Option ℤ := none
  loops : ReferenceKind → Option AuditLoop := fun _ => none
  failure : Option ImportFailure := none

/-- `resolve` reads the setting and resolves the channel, if neither raises; `other` is any other
transaction. -/
inductive AuditEvent
  | resolve (setting : Option ℤ) (failure : Option ImportFailure)
  | measure (kind : ReferenceKind)
  | read (kind : ReferenceKind)
  | lookUp (kind : ReferenceKind) (answer : Except ImportFailure (List (Option TelegramMessage)))
  | other (tables : ArchiveTables)

namespace AuditWorld

/-- A loop runs once both watermarks are read, the files after the posters. -/
def isTurn (w : AuditWorld) : ReferenceKind → Bool
  | .poster => (w.loops .quality).isSome
  | .quality => (w.loops .poster).any fun loop => loop.phase = .stopped

def putLoop (w : AuditWorld) (loop : AuditLoop) : AuditWorld :=
  { w with loops := Function.update w.loops loop.kind (some loop) }

/-- `_archive_channel_id` and `resolve_channel`. -/
def resolve (w : AuditWorld) (setting : Option ℤ) (failure : Option ImportFailure) : AuditWorld :=
  if w.channelId.isSome then w
  else
    match setting, failure with
    | _, some failure => { w with failure := some failure }
    | none, none =>
        { w with
          failure := some (.historicalImport "archive_channel_id is not configured".toList) }
    | some channelId, none => { w with channelId := some channelId }

/-- A watermark is read, the one of the posters first. -/
def measure (w : AuditWorld) (kind : ReferenceKind) : AuditWorld :=
  match w.channelId with
  | none => w
  | some channelId =>
      if (w.loops kind).isSome || (kind = .quality && (w.loops .poster).isNone) then w
      else w.putLoop { kind, channelId, highWatermark := w.tables.highWatermark channelId kind }

/-- A page is read. -/
def read (audit : IntegrityAudit) (w : AuditWorld) (kind : ReferenceKind) : AuditWorld :=
  match w.loops kind with
  | none => w
  | some loop =>
      if w.isTurn kind && loop.phase = .reading then w.putLoop (loop.read audit w.tables) else w

/-- The messages of a page are looked up, with `_require_same_length`. -/
def lookUp (audit : IntegrityAudit) (w : AuditWorld) (kind : ReferenceKind)
    (answer : Except ImportFailure (List (Option TelegramMessage))) : AuditWorld :=
  match w.loops kind with
  | none => w
  | some loop =>
      match loop.phase with
      | .lookingUp rows =>
          match answer with
          | .error failure => { w with failure := some failure }
          | .ok messages =>
              if rows.length ≠ messages.length then
                { w with failure := some (.historicalImport
                    "Archive audit returned an unexpected Telegram result length".toList) }
              else w.putLoop (loop.checkPage audit rows messages)
      | _ => w

/-- One event.  An audit that has raised does nothing any more. -/
def step (audit : IntegrityAudit) (w : AuditWorld) : AuditEvent → AuditWorld
  | .other tables => { w with tables }
  | .resolve setting failure => if w.failure.isSome then w else w.resolve setting failure
  | .measure kind => if w.failure.isSome then w else w.measure kind
  | .read kind => if w.failure.isSome then w else w.read audit kind
  | .lookUp kind answer => if w.failure.isSome then w else w.lookUp audit kind answer

/-- The report, once both loops have stopped. -/
def report? (audit : IntegrityAudit) (w : AuditWorld) : Option ArchiveIntegrityReport :=
  match w.loops .poster, w.loops .quality with
  | some posters, some qualities =>
      if posters.phase = .stopped ∧ qualities.phase = .stopped then
        some {
          checkedPosters := posters.checked
          checkedQualities := qualities.checked
          missingPosters := posters.missing
          missingQualities := qualities.missing
          missingExamples := (posters.examples ++ qualities.examples).take audit.exampleLimit }
      else none
  | _, _ => none

/-- The state after a run of the audit among other transactions. -/
abbrev after (audit : IntegrityAudit) (tables : ArchiveTables) (events : List AuditEvent) :
    AuditWorld :=
  Transition.run (step audit) { tables } events

end AuditWorld

/-! ### One loop -/

namespace AuditLoop

/-- The rows whose messages are looked up. -/
def pending (loop : AuditLoop) : List AuditRow :=
  match loop.phase with
  | .lookingUp rows => rows
  | _ => []

/-- The message ids that a loop asks Telegram for. -/
def asked (loop : AuditLoop) : List ℕ := loop.pending.map AuditRow.messageId

/-- The ids of the rows that are checked. -/
def seenIds (loop : AuditLoop) : List ℕ := loop.seen.map fun row => row.1.id

/-- The rows that were checked and whose message was not available. -/
def unavailable (loop : AuditLoop) : List MissingArchiveReference :=
  (loop.seen.filter fun row => !isAvailable row.2).map fun row =>
    ⟨loop.kind, row.1.id, row.1.messageId⟩

/-- The counters and the examples are those of the rows that are checked. -/
structure Counted (audit : IntegrityAudit) (loop : AuditLoop) : Prop where
  checked : loop.checked = loop.seen.length
  missing : loop.missing = loop.unavailable.length
  examples : loop.examples = loop.unavailable.take audit.exampleLimit

/-- **What a loop keeps**, whatever happens to the tables: it walks up, and not past the
watermark. -/
structure Sound (audit : IntegrityAudit) (loop : AuditLoop) : Prop extends Counted audit loop where
  ascending : (loop.seenIds ++ loop.pending.map AuditRow.id).Pairwise (· < ·)
  bounds : ∀ id ∈ loop.seenIds ++ loop.pending.map AuditRow.id, 0 < id ∧ id ≤ loop.highWatermark
  before : ∀ id ∈ loop.seenIds, id ≤ loop.afterId
  behind : ∀ row ∈ loop.pending, loop.afterId < row.id
  nonempty : loop.phase ≠ .lookingUp []
  pages : loop.pages ≤ loop.seen.length + if loop.phase = .reading then 0 else 1

variable {audit : IntegrityAudit} {loop : AuditLoop} {tables : ArchiveTables} {rows : List AuditRow}
  {messages : List (Option TelegramMessage)} {id : ℕ}

/-- What checking a row leaves as it is. -/
theorem checkRow_frame (audit : IntegrityAudit) (loop : AuditLoop)
    (row : AuditRow × Option TelegramMessage) :
    (checkRow audit loop row).kind = loop.kind ∧
      (checkRow audit loop row).channelId = loop.channelId ∧
      (checkRow audit loop row).highWatermark = loop.highWatermark ∧
      (checkRow audit loop row).pages = loop.pages ∧
      (checkRow audit loop row).seen = loop.seen ++ [row] := by
  unfold checkRow
  dsimp only
  split <;> exact ⟨rfl, rfl, rfl, rfl, rfl⟩

theorem checkRows_frame (audit : IntegrityAudit) (loop : AuditLoop)
    (checked : List (AuditRow × Option TelegramMessage)) :
    (checked.foldl (checkRow audit) loop).kind = loop.kind ∧
      (checked.foldl (checkRow audit) loop).channelId = loop.channelId ∧
      (checked.foldl (checkRow audit) loop).highWatermark = loop.highWatermark ∧
      (checked.foldl (checkRow audit) loop).pages = loop.pages ∧
      (checked.foldl (checkRow audit) loop).seen = loop.seen ++ checked := by
  induction checked generalizing loop with
  | nil => simp
  | cons row checked ih =>
      obtain ⟨hkind, hchannel, hwatermark, hpages, hseen⟩ := checkRow_frame audit loop row
      obtain ⟨hkind', hchannel', hwatermark', hpages', hseen'⟩ := ih (checkRow audit loop row)
      refine ⟨hkind'.trans hkind, hchannel'.trans hchannel, hwatermark'.trans hwatermark,
        hpages'.trans hpages, ?_⟩
      rw [List.foldl_cons, hseen', hseen, List.append_assoc]
      rfl

/-- The rows whose messages are not available, with one row more. -/
theorem unavailable_snoc {loop' : AuditLoop} {row : AuditRow × Option TelegramMessage}
    (hkind : loop'.kind = loop.kind)
    (hseen : loop'.seen = loop.seen ++ [row]) :
    loop'.unavailable =
      loop.unavailable ++
        if isAvailable row.2 then [] else [⟨loop.kind, row.1.id, row.1.messageId⟩] := by
  unfold unavailable
  rw [hseen, hkind, List.filter_append, List.map_append]
  congr 1
  cases havailable : isAvailable row.2 <;> simp [havailable]

/-- The first `n` of a list, kept while it grows. -/
theorem take_snoc {α : Type*} (l : List α) (x : α) (n : ℕ) :
    (l ++ [x]).take n = if (l.take n).length < n then l.take n ++ [x] else l.take n := by
  rw [List.take_append, List.length_take]
  by_cases h : l.length < n
  · have hroom : [x].length ≤ n - l.length := by
      rw [List.length_singleton]
      omega
    rw [if_pos (by omega), List.take_of_length_le h.le, List.take_of_length_le hroom]
  · rw [if_neg (by omega), Nat.sub_eq_zero_of_le (by omega), List.take_zero, List.append_nil]

/-- **One row more is counted.** -/
theorem Counted.checkRow (h : Counted audit loop) (row : AuditRow × Option TelegramMessage) :
    Counted audit (checkRow audit loop row) := by
  obtain ⟨hkind, -, -, -, hseen⟩ := checkRow_frame audit loop row
  have hunavailable := unavailable_snoc hkind hseen
  have hchecked : (AuditLoop.checkRow audit loop row).checked = loop.checked + 1 := by
    unfold AuditLoop.checkRow
    dsimp only
    split <;> rfl
  refine ⟨?_, ?_, ?_⟩
  · rw [hchecked, hseen, h.checked, List.length_append]
    rfl
  · rw [hunavailable]
    unfold AuditLoop.checkRow
    cases isAvailable row.2 with
    | true => simpa using h.missing
    | false => simpa using h.missing
  · rw [hunavailable]
    unfold AuditLoop.checkRow
    cases isAvailable row.2 with
    | true => simpa using h.examples
    | false =>
        dsimp only
        rw [if_neg Bool.false_ne_true, if_neg Bool.false_ne_true, take_snoc, h.examples]

theorem Counted.checkRows (h : Counted audit loop)
    (checked : List (AuditRow × Option TelegramMessage)) :
    Counted audit (checked.foldl (AuditLoop.checkRow audit) loop) := by
  induction checked generalizing loop with
  | nil => exact h
  | cons row checked ih => exact ih (h.checkRow row)

/-! ### Pages -/

/-- The rows of a kind are in the order of their ids. -/
theorem pairwise_indexedRows (tables : ArchiveTables) (channelId : ℤ) (kind : ReferenceKind) :
    (tables.indexedRows channelId kind).Pairwise fun row row' => row.id < row'.id := by
  cases kind with
  | poster => exact List.pairwise_map.2 (tables.movies.ordered.filter _)
  | quality => exact List.pairwise_map.2 (tables.qualities.ordered.filter _)

theorem pairwise_page : (loop.page audit tables).Pairwise fun row row' => row.id < row'.id :=
  ((pairwise_indexedRows _ _ _).filter _).sublist (List.take_sublist _ _)

theorem mem_page {row : AuditRow} (h : row ∈ loop.page audit tables) :
    row ∈ tables.indexedRows loop.channelId loop.kind ∧ loop.afterId < row.id ∧
      row.id ≤ loop.highWatermark := by
  obtain ⟨hmem, hrange⟩ := List.mem_filter.1 (List.mem_of_mem_take h)
  exact ⟨hmem, by simpa using hrange⟩

/-- An indexed row behind the last page is still to be read. -/
theorem mem_unread {row : AuditRow} (hrow : row ∈ tables.indexedRows loop.channelId loop.kind)
    (hafter : loop.afterId < row.id) (hwatermark : row.id ≤ loop.highWatermark) :
    row ∈ (tables.indexedRows loop.channelId loop.kind).filter fun row =>
      loop.afterId < row.id && row.id ≤ loop.highWatermark := by
  refine List.mem_filter.2 ⟨hrow, ?_⟩
  simp [hafter, hwatermark]

/-- **A page has no gaps**: an indexed row behind the last page and not after the last row of this
one is on it. -/
theorem mem_page_of_le {row last : AuditRow}
    (hrow : row ∈ tables.indexedRows loop.channelId loop.kind)
    (hafter : loop.afterId < row.id) (hwatermark : row.id ≤ loop.highWatermark)
    (hlast : last ∈ loop.page audit tables) (hle : row.id ≤ last.id) :
    row ∈ loop.page audit tables := by
  have hmem := mem_unread hrow hafter hwatermark
  have hsorted := (pairwise_indexedRows tables loop.channelId loop.kind).filter fun row =>
    decide (loop.afterId < row.id) && decide (row.id ≤ loop.highWatermark)
  unfold page at hlast ⊢
  rw [← List.take_append_drop audit.batchSize (List.filter _ _)] at hmem hsorted
  rcases List.mem_append.1 hmem with hmem | hmem
  · exact hmem
  · -- what is not taken comes after what is
    have hlt := (List.pairwise_append.1 hsorted).2.2 last hlast row hmem
    omega

theorem page_ne_nil {row : AuditRow} (hrow : row ∈ tables.indexedRows loop.channelId loop.kind)
    (hafter : loop.afterId < row.id) (hwatermark : row.id ≤ loop.highWatermark) :
    loop.page audit tables ≠ [] := by
  have hmem := mem_unread hrow hafter hwatermark
  have hsize := audit.batchSize_bounds.1
  have hlength := List.length_pos_of_mem hmem
  intro hnil
  have htake := congrArg List.length hnil
  rw [page, List.length_take, List.length_nil] at htake
  omega

/-! ### What a loop keeps -/

theorem sound_start (kind : ReferenceKind) (channelId : ℤ) (highWatermark : ℕ) :
    Sound audit { kind, channelId, highWatermark } where
  checked := rfl
  missing := rfl
  examples := List.take_nil.symm
  ascending := List.Pairwise.nil
  bounds := fun _ h => (by cases h)
  before := fun _ h => (by cases h)
  behind := fun _ h => (by cases h)
  nonempty := fun h => (by cases h)
  pages := le_refl _

theorem pending_read : (loop.read audit tables).pending = loop.page audit tables := by
  unfold AuditLoop.read pending
  by_cases hnil : loop.page audit tables = []
  · rw [if_pos hnil, hnil]
  · rw [if_neg hnil]

theorem Sound.read (h : Sound audit loop) (hphase : loop.phase = .reading)
    (tables : ArchiveTables) :
    Sound audit (loop.read audit tables) := by
  have hseen : (loop.read audit tables).seen = loop.seen := rfl
  have hpending : (loop.read audit tables).pending = loop.page audit tables := pending_read
  -- a loop that reads waits for no answer
  have hbefore : loop.pending = [] := by
    unfold pending
    rw [hphase]
  have hascending := h.ascending
  have hbounds := h.bounds
  rw [hbefore, List.map_nil, List.append_nil] at hascending hbounds
  refine ⟨⟨h.checked, h.missing, h.examples⟩, ?_, ?_, h.before, ?_, ?_, ?_⟩
  · rw [hpending]
    refine List.pairwise_append.2 ⟨hascending, List.pairwise_map.2 pairwise_page, ?_⟩
    intro id hid id' hid'
    obtain ⟨row, hrow, rfl⟩ := List.mem_map.1 hid'
    exact (h.before id hid).trans_lt (mem_page hrow).2.1
  · rw [hpending]
    intro id hid
    rcases List.mem_append.1 hid with hid | hid
    · exact hbounds id hid
    · obtain ⟨row, hrow, rfl⟩ := List.mem_map.1 hid
      obtain ⟨-, hafter, hwatermark⟩ := mem_page hrow
      exact ⟨(Nat.zero_le _).trans_lt hafter, hwatermark⟩
  · rw [hpending]
    exact fun row hrow => (mem_page hrow).2.1
  · unfold AuditLoop.read
    dsimp only
    split
    · exact fun h => (by cases h)
    · next hnil => exact fun heq => hnil (AuditPhase.lookingUp.inj heq)
  · have hpages := h.pages
    rw [if_pos hphase] at hpages
    have hnot : (loop.read audit tables).phase ≠ .reading := by
      unfold AuditLoop.read
      dsimp only
      split <;> exact fun h => (by cases h)
    rw [if_neg hnot, hseen]
    exact Nat.succ_le_succ hpages

/-- The last of the ids that are looked up. -/
theorem le_getLast {rows : List AuditRow} (hsorted : (rows.map AuditRow.id).Pairwise (· < ·))
    {last : AuditRow}
    (hlast : rows.getLast? = some last) {row : AuditRow} (hrow : row ∈ rows) :
    row.id ≤ last.id := by
  obtain ⟨front, rfl⟩ := List.getLast?_eq_some_iff.1 hlast
  rcases List.mem_append.1 hrow with hrow | hrow
  · exact ((List.pairwise_append.1 (List.pairwise_map.1 hsorted)).2.2 row hrow last
      List.mem_cons_self).le
  · rw [List.mem_singleton.1 hrow]

theorem seenIds_checkPage (hlength : rows.length = messages.length) :
    (loop.checkPage audit rows messages).seenIds = loop.seenIds ++ rows.map AuditRow.id := by
  have hseen : (loop.checkPage audit rows messages).seen = loop.seen ++ rows.zip messages :=
    (checkRows_frame audit loop _).2.2.2.2
  unfold seenIds
  rw [hseen, List.map_append]
  congr 1
  conv_rhs => rw [← List.map_fst_zip hlength.le, List.map_map]
  rfl

theorem Sound.checkPage (h : Sound audit loop) (hphase : loop.phase = .lookingUp rows)
    (hlength : rows.length = messages.length) :
    Sound audit (loop.checkPage audit rows messages) := by
  have hpending : loop.pending = rows := by
    unfold pending
    rw [hphase]
  have hnone : (loop.checkPage audit rows messages).pending = [] := rfl
  have hseenIds : (loop.checkPage audit rows messages).seenIds = _ := seenIds_checkPage hlength
  obtain ⟨-, -, hwatermark, hpages, hseen⟩ := checkRows_frame audit loop (rows.zip messages)
  have hascending := h.ascending
  have hbounds := h.bounds
  have hbehind := h.behind
  rw [hpending] at hascending hbounds hbehind
  have hrows : rows ≠ [] := by
    rintro rfl
    exact h.nonempty hphase
  obtain ⟨last, hlast⟩ := Option.ne_none_iff_exists'.1 (List.getLast?_eq_none_iff.not.2 hrows)
  have hsorted := (List.pairwise_append.1 hascending).2.1
  have hafterId : (loop.checkPage audit rows messages).afterId = last.id := by
    unfold AuditLoop.checkPage
    rw [hlast]
    rfl
  have hcounted := h.toCounted.checkRows (rows.zip messages)
  refine ⟨⟨hcounted.checked, hcounted.missing, hcounted.examples⟩, ?_, ?_, ?_, ?_, ?_, ?_⟩
  · rw [hnone, hseenIds]
    simpa using hascending
  · rw [hnone, hseenIds]
    intro id hid
    have hle := hbounds id (by simpa using hid)
    exact ⟨hle.1, hle.2.trans_eq hwatermark.symm⟩
  · rw [hseenIds, hafterId]
    intro id hid
    rcases List.mem_append.1 hid with hid | hid
    · exact (h.before id hid).trans (hbehind last (List.mem_of_getLast? hlast)).le
    · obtain ⟨row, hrow, rfl⟩ := List.mem_map.1 hid
      exact le_getLast hsorted hlast hrow
  · exact fun row hrow => (by cases hrow)
  · exact fun h => (by cases h)
  · -- a page that is checked has rows
    have hbefore := h.pages
    have hnot : loop.phase ≠ .reading := by
      rw [hphase]
      exact fun h => (by cases h)
    have hpositive : 0 < rows.length := List.length_pos_iff.2 hrows
    have hcount : (loop.checkPage audit rows messages).seen.length =
        loop.seen.length + rows.length := by
      have hseen' : (loop.checkPage audit rows messages).seen = loop.seen ++ rows.zip messages :=
        hseen
      rw [hseen', List.length_append, List.length_zip, ← hlength, Nat.min_self]
    rw [if_neg hnot] at hbefore
    have hphase' : (loop.checkPage audit rows messages).phase = .reading := rfl
    rw [hcount, if_pos hphase']
    exact hpages.le.trans (by omega)

/-- Strictly ascending numbers from 1 to `n` are at most `n`. -/
theorem length_le_of_ascending {ids : List ℕ} {n : ℕ} (hsorted : ids.Pairwise (· < ·))
    (hbounds : ∀ id ∈ ids, 0 < id ∧ id ≤ n) : ids.length ≤ n := by
  have hsub : ids ⊆ List.range' 1 n := by
    intro id hid
    obtain ⟨hpos, hle⟩ := hbounds id hid
    rw [List.mem_range'_1]
    omega
  have hnodup : ids.Nodup := hsorted.imp ne_of_lt
  simpa using (List.subperm_of_subset hnodup hsub).length_le

/-- **A loop reads at most one page more than its watermark says.** -/
theorem Sound.pages_le (h : Sound audit loop) : loop.pages ≤ loop.highWatermark + 1 := by
  have hsorted := (List.pairwise_append.1 h.ascending).1
  have hlength :=
    length_le_of_ascending hsorted fun id hid => h.bounds id (List.mem_append_left _ hid)
  have hpages := h.pages
  unfold seenIds at hlength
  rw [List.length_map] at hlength
  split at hpages <;> omega

end AuditLoop

/-! ### A row that is indexed throughout -/

/-- The row is indexed, in the archive channel. -/
def ArchiveTables.Indexes (tables : ArchiveTables) (channelId : ℤ) (kind : ReferenceKind)
    (id : ℕ) : Prop :=
  ∃ row ∈ tables.indexedRows channelId kind, row.id = id

namespace AuditLoop

/-- **What a loop keeps about a row that is indexed throughout**: it is checked when the loop has
passed it. -/
structure Covers (loop : AuditLoop) (id : ℕ) : Prop where
  below : id ≤ loop.highWatermark
  passed : id ≤ loop.afterId → id ∈ loop.seenIds
  pending : ∀ last ∈ loop.pending, id ≤ last.id → id ∈ loop.seenIds ++ loop.pending.map AuditRow.id
  stopped : loop.phase = .stopped → id ∈ loop.seenIds

variable {audit : IntegrityAudit} {loop : AuditLoop} {tables : ArchiveTables} {rows : List AuditRow}
  {messages : List (Option TelegramMessage)} {kind : ReferenceKind} {channelId : ℤ} {id : ℕ}

theorem le_foldr_max_ids (hindexed : tables.Indexes channelId kind id) :
    id ≤ tables.highWatermark channelId kind := by
  obtain ⟨row, hrow, rfl⟩ := hindexed
  exact KeyedTable.le_foldr_max (List.mem_map_of_mem hrow)

theorem covers_start (hpos : 0 < id) (hindexed : tables.Indexes channelId kind id) :
    Covers { kind, channelId, highWatermark := tables.highWatermark channelId kind } id where
  below := le_foldr_max_ids hindexed
  passed := fun h => absurd h (Nat.not_le_of_gt hpos)
  pending := fun _ h => (by cases h)
  stopped := fun h => (by cases h)

theorem Covers.read (h : Covers loop id) (hindexed : tables.Indexes loop.channelId loop.kind id) :
    Covers (loop.read audit tables) id := by
  obtain ⟨row, hrow, rfl⟩ := hindexed
  -- the row is passed already, or it is on this page or behind it
  have hcases : row.id ∈ loop.seenIds ∨ loop.afterId < row.id := by
    by_cases hafter : loop.afterId < row.id
    · exact .inr hafter
    · exact .inl (h.passed (Nat.le_of_not_lt hafter))
  refine ⟨h.below, h.passed, ?_, ?_⟩
  · intro last hlast hle
    rw [pending_read] at hlast ⊢
    rcases hcases with hseen | hafter
    · exact List.mem_append_left _ hseen
    · exact List.mem_append_right _
        (List.mem_map_of_mem (mem_page_of_le hrow hafter h.below hlast hle))
  · intro hstopped
    refine hcases.resolve_right fun hafter => ?_
    unfold AuditLoop.read at hstopped
    dsimp only at hstopped
    rw [if_neg (page_ne_nil hrow hafter h.below)] at hstopped
    cases hstopped

theorem Covers.checkPage (h : Covers loop id) (hsound : Sound audit loop)
    (hphase : loop.phase = .lookingUp rows)
    (hlength : rows.length = messages.length) : Covers (loop.checkPage audit rows messages) id := by
  have hpending : loop.pending = rows := by
    unfold AuditLoop.pending
    rw [hphase]
  have hbelow : id ≤ (loop.checkPage audit rows messages).highWatermark :=
    h.below.trans_eq (checkRows_frame audit loop _).2.2.1.symm
  refine ⟨hbelow, ?_, fun last hlast => (by cases hlast), fun hstopped => (by cases hstopped)⟩
  intro hle
  rw [seenIds_checkPage hlength]
  have hrows : rows ≠ [] := by
    rintro rfl
    exact hsound.nonempty hphase
  obtain ⟨last, hlast⟩ := Option.ne_none_iff_exists'.1 (List.getLast?_eq_none_iff.not.2 hrows)
  have hafterId : (loop.checkPage audit rows messages).afterId = last.id := by
    unfold AuditLoop.checkPage
    rw [hlast]
    rfl
  have hcovered := h.pending last (hpending ▸ List.mem_of_getLast? hlast) (hle.trans_eq hafterId)
  rw [hpending] at hcovered
  exact hcovered

end AuditLoop

/-! ### Runs -/

namespace AuditWorld

variable {audit : IntegrityAudit} {w : AuditWorld} {kind : ReferenceKind} {loop loop' : AuditLoop}

/-- **What an event does to a loop**: nothing; it starts it, reads a page of it, or checks one. -/
inductive LoopStep (audit : IntegrityAudit) (w : AuditWorld) (event : AuditEvent) (w' : AuditWorld)
    (kind : ReferenceKind) : Prop
  | same (h : w'.loops kind = w.loops kind)
  | starts (channelId : ℤ) (he : event = .measure kind) (hnone : w.loops kind = none)
      (hchannel : w.channelId = some channelId)
      (h : w'.loops kind =
        some { kind, channelId, highWatermark := w.tables.highWatermark channelId kind })
  | reads (loop : AuditLoop) (he : event = .read kind) (hloop : w.loops kind = some loop)
      (hphase : loop.phase = .reading) (h : w'.loops kind = some (loop.read audit w.tables))
  | checks (loop : AuditLoop) (rows : List AuditRow) (messages : List (Option TelegramMessage))
      (he : event = .lookUp kind (.ok messages)) (hloop : w.loops kind = some loop)
      (hphase : loop.phase = .lookingUp rows)
      (hlength : rows.length = messages.length)
      (h : w'.loops kind = some (loop.checkPage audit rows messages))

/-- Each loop is the one of its kind, for the channel of the audit, and keeps what a loop keeps. -/
structure Sound (audit : IntegrityAudit) (w : AuditWorld) : Prop where
  kinds : ∀ kind loop, w.loops kind = some loop → loop.kind = kind
  loops : ∀ kind loop, w.loops kind = some loop → loop.Sound audit
  channel : ∀ kind loop, w.loops kind = some loop → w.channelId = some loop.channelId

theorem loops_putLoop_self (hkind : loop.kind = kind) :
    (w.putLoop loop).loops kind = some loop := by
  unfold putLoop
  rw [hkind]
  exact Function.update_self _ _ _

theorem loops_putLoop_of_ne {other : ReferenceKind} (hkind : loop.kind = other) (h : kind ≠ other) :
    (w.putLoop loop).loops kind = w.loops kind := by
  unfold putLoop
  rw [hkind]
  exact Function.update_of_ne h _ _

theorem kind_checkPage (audit : IntegrityAudit) (loop : AuditLoop) (rows : List AuditRow)
    (messages : List (Option TelegramMessage)) :
    (loop.checkPage audit rows messages).kind = loop.kind ∧
      (loop.checkPage audit rows messages).channelId = loop.channelId :=
  ⟨(AuditLoop.checkRows_frame audit loop _).1, (AuditLoop.checkRows_frame audit loop _).2.1⟩

theorem loopStep_measure (w : AuditWorld) (k kind : ReferenceKind) :
    LoopStep audit w (.measure k) (w.measure k) kind := by
  unfold measure
  split
  · exact .same rfl
  · next channelId hchannel =>
      split
      · exact .same rfl
      · next hnone =>
          by_cases hk : kind = k
          · subst hk
            refine .starts channelId rfl ?_ hchannel (loops_putLoop_self rfl)
            simp only [Bool.or_eq_true, not_or, Bool.not_eq_true, Option.isSome_eq_false_iff,
              Option.isNone_iff_eq_none] at hnone
            exact hnone.1
          · exact .same (loops_putLoop_of_ne rfl hk)

theorem Sound.loopStep_read (hw : w.Sound audit) (k kind : ReferenceKind) :
    LoopStep audit w (.read k) (w.read audit k) kind := by
  unfold AuditWorld.read
  split
  · exact .same rfl
  · next loop hloop =>
      have hkind : (loop.read audit w.tables).kind = k := hw.kinds k loop hloop
      split
      · next hturn =>
          have hphase : loop.phase = .reading := of_decide_eq_true (Bool.and_eq_true_iff.1 hturn).2
          by_cases hk : kind = k
          · subst hk
            exact .reads loop rfl hloop hphase (loops_putLoop_self hkind)
          · exact .same (loops_putLoop_of_ne hkind hk)
      · exact .same rfl

theorem Sound.loopStep_lookUp (hw : w.Sound audit) (k kind : ReferenceKind)
    (answer : Except ImportFailure (List (Option TelegramMessage))) :
    LoopStep audit w (.lookUp k answer) (w.lookUp audit k answer) kind := by
  unfold AuditWorld.lookUp
  split
  · exact .same rfl
  · next loop hloop =>
      split
      · next rows hphase =>
          split
          · exact .same rfl
          · next messages =>
              have hkind : (loop.checkPage audit rows messages).kind = k :=
                (kind_checkPage audit loop rows messages).1.trans (hw.kinds k loop hloop)
              split
              · exact .same rfl
              · next hlength =>
                  by_cases hk : kind = k
                  · subst hk
                    exact .checks loop rows messages rfl hloop hphase (not_not.1 hlength)
                      (loops_putLoop_self hkind)
                  · exact .same (loops_putLoop_of_ne hkind hk)
      · exact .same rfl

/-- **What an event does to a loop.** -/
theorem Sound.loopStep (hw : w.Sound audit) (event : AuditEvent) (kind : ReferenceKind) :
    LoopStep audit w event (w.step audit event) kind := by
  cases event with
  | other tables => exact .same rfl
  | resolve setting failure =>
      simp only [step, resolve]
      split
      · exact .same rfl
      · split
        · exact .same rfl
        · split <;> exact .same rfl
  | measure k =>
      simp only [step]
      split
      · exact .same rfl
      · exact loopStep_measure w k kind
  | read k =>
      simp only [step]
      split
      · exact .same rfl
      · exact hw.loopStep_read k kind
  | lookUp k answer =>
      simp only [step]
      split
      · exact .same rfl
      · exact hw.loopStep_lookUp k kind answer

/-- The channel is resolved once. -/
theorem channelId_step {channelId : ℤ} (h : w.channelId = some channelId) (event : AuditEvent) :
    (w.step audit event).channelId = some channelId := by
  cases event with
  | other tables => exact h
  | resolve setting failure =>
      simp only [step, resolve, h, Option.isSome_some, if_true]
      split <;> exact h
  | measure kind =>
      simp only [step, measure, h]
      split
      · exact h
      · split <;> exact h
  | read kind =>
      simp only [step, AuditWorld.read]
      split
      · exact h
      · split
        · exact h
        · split <;> exact h
  | lookUp kind answer =>
      simp only [step, AuditWorld.lookUp]
      split
      · exact h
      · split
        · exact h
        · split
          · split
            · exact h
            · split <;> exact h
          · exact h

theorem Sound.step (hw : w.Sound audit) (event : AuditEvent) :
    (w.step audit event).Sound audit := by
  have hloop : ∀ kind loop', (w.step audit event).loops kind = some loop' →
      loop'.kind = kind ∧ loop'.Sound audit ∧
        (w.step audit event).channelId = some loop'.channelId := by
    intro kind loop' hloop'
    cases hw.loopStep event kind with
    | same h =>
        rw [h] at hloop'
        exact ⟨hw.kinds kind loop' hloop', hw.loops kind loop' hloop',
          channelId_step (hw.channel kind loop' hloop') event⟩
    | starts channelId he hnone hchannel h =>
        obtain rfl := Option.some.inj (h.symm.trans hloop')
        exact ⟨rfl, AuditLoop.sound_start kind channelId _, channelId_step hchannel event⟩
    | reads loop he hloop hphase h =>
        obtain rfl := Option.some.inj (h.symm.trans hloop')
        exact ⟨hw.kinds kind loop hloop, (hw.loops kind loop hloop).read hphase w.tables,
          channelId_step (hw.channel kind loop hloop) event⟩
    | checks loop rows messages he hloop hphase hlength h =>
        obtain rfl := Option.some.inj (h.symm.trans hloop')
        obtain ⟨hkind, hchannel⟩ := kind_checkPage audit loop rows messages
        refine ⟨hkind.trans (hw.kinds kind loop hloop),
          (hw.loops kind loop hloop).checkPage hphase hlength, ?_⟩
        rw [hchannel]
        exact channelId_step (hw.channel kind loop hloop) event
  exact ⟨fun kind loop h => (hloop kind loop h).1, fun kind loop h => (hloop kind loop h).2.1,
    fun kind loop h => (hloop kind loop h).2.2⟩

theorem sound_initial (audit : IntegrityAudit) (tables : ArchiveTables) :
    Sound audit ({ tables } : AuditWorld) :=
  ⟨fun _ _ h => (by cases h), fun _ _ h => (by cases h), fun _ _ h => (by cases h)⟩

theorem sound_after (audit : IntegrityAudit) (tables : ArchiveTables) (events : List AuditEvent) :
    (after audit tables events).Sound audit :=
  Transition.run_invariant (fun _ event hw => hw.step event) (sound_initial audit tables) events

/-- **A row that is indexed throughout is covered.** -/
theorem covers_after (audit : IntegrityAudit) (tables : ArchiveTables) (events : List AuditEvent)
    {channelId : ℤ} {id : ℕ} (hpos : 0 < id)
    (halways : Transition.Always (step audit) (fun w => w.tables.Indexes channelId kind id)
      { tables } events)
    (hloop : (after audit tables events).loops kind = some loop)
    (hchannel : loop.channelId = channelId) :
    loop.Covers id := by
  have hinvariant : ∀ w : AuditWorld, ∀ event : AuditEvent,
      (w.Sound audit ∧ ∀ loop, w.loops kind = some loop → loop.channelId = channelId →
        loop.Covers id) →
      w.tables.Indexes channelId kind id →
      (w.step audit event).Sound audit ∧
        ∀ loop, (w.step audit event).loops kind = some loop → loop.channelId = channelId →
          loop.Covers id := by
    rintro w event ⟨hw, hcovers⟩ hindexed
    refine ⟨hw.step event, fun loop' hloop' hchannel' => ?_⟩
    cases hw.loopStep event kind with
    | same h =>
        rw [h] at hloop'
        exact hcovers loop' hloop' hchannel'
    -- a loop starts with the watermark of tables that have the row
    | starts channelId' he hnone hsome h =>
        obtain rfl := Option.some.inj (h.symm.trans hloop')
        have heq : channelId' = channelId := hchannel'
        subst heq
        exact AuditLoop.covers_start hpos hindexed
    | reads loop he hloop hphase h =>
        obtain rfl := Option.some.inj (h.symm.trans hloop')
        have hkind := hw.kinds kind loop hloop
        have hchannel : loop.channelId = channelId := hchannel'
        exact (hcovers loop hloop hchannel).read (by rw [hkind, hchannel]; exact hindexed)
    | checks loop rows messages he hloop hphase hlength h =>
        obtain rfl := Option.some.inj (h.symm.trans hloop')
        have hchannel : loop.channelId = channelId :=
          (kind_checkPage audit loop rows messages).2.symm.trans hchannel'
        exact (hcovers loop hloop hchannel).checkPage (hw.loops kind loop hloop) hphase hlength
  have hrun : (after audit tables events).Sound audit ∧
      ∀ loop, (after audit tables events).loops kind = some loop →
        loop.channelId = channelId → loop.Covers id := Transition.run_invariant_along
    (I := fun w => w.Sound audit ∧ ∀ loop, w.loops kind = some loop → loop.channelId = channelId →
      loop.Covers id)
    hinvariant ⟨sound_initial audit tables, fun _ h => (by cases h)⟩ halways.along
  exact hrun.2 loop hloop hchannel

/-- A query of the run has read the row, while it was indexed. -/
def ReadsRow (audit : IntegrityAudit) (tables : ArchiveTables) (events : List AuditEvent)
    (channelId : ℤ) (kind : ReferenceKind) (row : AuditRow) : Prop :=
  ∃ pre, pre ++ [.read kind] <+: events ∧
    row ∈ (after audit tables pre).tables.indexedRows channelId kind

/-- A look-up of the run has asked for the message of the row and was answered with it. -/
def LooksUp (audit : IntegrityAudit) (tables : ArchiveTables) (events : List AuditEvent)
    (kind : ReferenceKind) (row : AuditRow) (message : Option TelegramMessage) : Prop :=
  ∃ pre messages loop, pre ++ [.lookUp kind (.ok messages)] <+: events ∧
    (after audit tables pre).loops kind = some loop ∧
      (row.messageId, message) ∈ loop.asked.zip messages

/-- **Where the variables of a loop come from**: the watermark from the tables it was measured in,
the rows from the queries, and the messages from the look-ups. -/
structure Traced (audit : IntegrityAudit) (tables : ArchiveTables) (events : List AuditEvent)
    (kind : ReferenceKind) (loop : AuditLoop) : Prop where
  measured : ∃ pre, pre ++ [.measure kind] <+: events ∧
    loop.highWatermark = (after audit tables pre).tables.highWatermark loop.channelId kind
  pending : ∀ row ∈ loop.pending, ReadsRow audit tables events loop.channelId kind row
  seen : ∀ row message, (row, message) ∈ loop.seen →
    ReadsRow audit tables events loop.channelId kind row ∧
      LooksUp audit tables events kind row message

section Traced

variable {tables : ArchiveTables} {events : List AuditEvent}

theorem ReadsRow.later {channelId : ℤ} {row : AuditRow}
    (h : ReadsRow audit tables events channelId kind row) (event : AuditEvent) :
    ReadsRow audit tables (events ++ [event]) channelId kind row := by
  obtain ⟨pre, hpre, hrow⟩ := h
  exact ⟨pre, hpre.trans (List.prefix_append _ _), hrow⟩

theorem LooksUp.later {row : AuditRow} {message : Option TelegramMessage}
    (h : LooksUp audit tables events kind row message) (event : AuditEvent) :
    LooksUp audit tables (events ++ [event]) kind row message := by
  obtain ⟨pre, messages, loop, hpre, hloop, hmem⟩ := h
  exact ⟨pre, messages, loop, hpre.trans (List.prefix_append _ _), hloop, hmem⟩

theorem Traced.later (h : Traced audit tables events kind loop) (event : AuditEvent) :
    Traced audit tables (events ++ [event]) kind loop := by
  obtain ⟨pre, hpre, hwatermark⟩ := h.measured
  refine ⟨⟨pre, hpre.trans (List.prefix_append _ _), hwatermark⟩,
    fun row hrow => (h.pending row hrow).later event, fun row message hmem => ?_⟩
  obtain ⟨hread, hlooked⟩ := h.seen row message hmem
  exact ⟨hread.later event, hlooked.later event⟩

/-- A page is read. -/
theorem Traced.read (h : Traced audit tables events kind loop) (hkind : loop.kind = kind) :
    Traced audit tables (events ++ [.read kind]) kind
      (loop.read audit (after audit tables events).tables) := by
  have hlater := h.later (.read kind)
  refine ⟨hlater.measured, fun row hrow => ⟨events, List.prefix_rfl, ?_⟩, hlater.seen⟩
  rw [AuditLoop.pending_read] at hrow
  exact hkind ▸ (AuditLoop.mem_page hrow).1

/-- The rows of a page are checked against the answers of the look-up. -/
theorem Traced.checkPage (h : Traced audit tables events kind loop) {rows : List AuditRow}
    {messages : List (Option TelegramMessage)}
    (hloop : (after audit tables events).loops kind = some loop)
    (hphase : loop.phase = .lookingUp rows) :
    Traced audit tables (events ++ [.lookUp kind (.ok messages)]) kind
      (loop.checkPage audit rows messages) := by
  have hlater := h.later (.lookUp kind (.ok messages))
  have hpending : loop.pending = rows := by
    unfold AuditLoop.pending
    rw [hphase]
  obtain ⟨-, hchannel, hwatermark, -, hseen⟩ :=
    AuditLoop.checkRows_frame audit loop (rows.zip messages)
  have hchannel : (loop.checkPage audit rows messages).channelId = loop.channelId := hchannel
  refine ⟨?_, fun row hrow => (by cases hrow), fun row message hmem => ?_⟩
  · rw [hchannel]
    obtain ⟨pre, hpre, hmeasured⟩ := hlater.measured
    exact ⟨pre, hpre, hwatermark.trans hmeasured⟩
  · rw [hchannel]
    rcases List.mem_append.1 (hseen ▸ hmem : (row, message) ∈ loop.seen ++ rows.zip messages)
      with hold | hnew
    · exact hlater.seen row message hold
    · refine ⟨hlater.pending row (hpending ▸ (List.of_mem_zip hnew).1),
        ⟨events, messages, loop, List.prefix_rfl, hloop, ?_⟩⟩
      rw [AuditLoop.asked, hpending, List.zip_map_left]
      exact List.mem_map_of_mem (f := Prod.map AuditRow.messageId id) hnew

theorem traced_after (audit : IntegrityAudit) (tables : ArchiveTables) (events : List AuditEvent)
    (hloop : (after audit tables events).loops kind = some loop) :
    Traced audit tables events kind loop := by
  induction events using List.reverseRecOn generalizing loop with
  | nil => cases hloop
  | append_singleton events event ih =>
      have hw := sound_after audit tables events
      rw [after, Transition.run_snoc] at hloop
      cases hw.loopStep event kind with
      | same h =>
          rw [h] at hloop
          exact (ih hloop).later event
      | starts channelId he hnone hchannel h =>
          subst he
          obtain rfl := Option.some.inj (h.symm.trans hloop)
          exact ⟨⟨events, List.prefix_rfl, rfl⟩, fun row hrow => (by cases hrow),
            fun row message hmem => (by cases hmem)⟩
      | reads loop he hbefore hphase h =>
          subst he
          obtain rfl := Option.some.inj (h.symm.trans hloop)
          exact (ih hbefore).read (hw.kinds kind loop hbefore)
      | checks loop rows messages he hbefore hphase hlength h =>
          subst he
          obtain rfl := Option.some.inj (h.symm.trans hloop)
          exact (ih hbefore).checkPage hbefore hphase

end Traced

/-- A loop whose turn it is and that has not stopped goes on. -/
theorem Sound.loop_goes_on (hw : w.Sound audit) (hfailure : w.failure = none)
    (hloop : w.loops kind = some loop)
    (hturn : w.isTurn kind = true) (hphase : loop.phase ≠ .stopped) :
    ∃ event, (∀ tables, event ≠ .other tables) ∧ w.step audit event ≠ w := by
  cases hcurrent : loop.phase with
  | stopped => exact absurd hcurrent hphase
  | reading =>
      refine ⟨.read kind, fun _ h => (by cases h), fun heq => ?_⟩
      have hstep : (w.step audit (.read kind)).loops kind = some (loop.read audit w.tables) := by
        simp only [AuditWorld.step, AuditWorld.read, hfailure, hloop, hturn, hcurrent]
        exact loops_putLoop_self (hw.kinds kind loop hloop)
      rw [heq, hloop] at hstep
      have hpages : loop.pages = loop.pages + 1 := congrArg AuditLoop.pages (Option.some.inj hstep)
      omega
  | lookingUp rows =>
      refine ⟨.lookUp kind (.ok (rows.map fun _ => none)), fun _ h => (by cases h), fun heq => ?_⟩
      have hlength : rows.length = (rows.map fun _ => (none : Option TelegramMessage)).length := by
        simp
      have hstep : (w.step audit (.lookUp kind (.ok (rows.map fun _ => none)))).loops kind =
          some (loop.checkPage audit rows (rows.map fun _ => none)) := by
        simp only [AuditWorld.step, AuditWorld.lookUp, hfailure, hloop, hcurrent]
        rw [if_neg (by simp), if_neg (not_not.2 hlength)]
        exact loops_putLoop_self
          ((kind_checkPage audit loop rows _).1.trans (hw.kinds kind loop hloop))
      rw [heq, hloop] at hstep
      have hreading : loop.phase = .reading := congrArg AuditLoop.phase (Option.some.inj hstep)
      rw [hcurrent] at hreading
      cases hreading

/-- A watermark that is not read yet can be read. -/
theorem measure_goes_on {channelId : ℤ} (hfailure : w.failure = none)
    (hchannel : w.channelId = some channelId)
    (hnone : w.loops kind = none) (horder : kind = .quality → (w.loops .poster).isSome) :
    ∃ event, (∀ tables, event ≠ .other tables) ∧ w.step audit event ≠ w := by
  refine ⟨.measure kind, fun _ h => (by cases h), fun heq => ?_⟩
  have hready : ((w.loops kind).isSome || (kind = .quality && (w.loops .poster).isNone)) =
      false := by
    rw [hnone]
    cases kind with
    | poster => rfl
    | quality => simpa using horder rfl
  have hstep : (w.step audit (.measure kind)).loops kind =
      some { kind, channelId, highWatermark := w.tables.highWatermark channelId kind } := by
    simp only [AuditWorld.step, measure, hfailure, hchannel, hready]
    exact loops_putLoop_self rfl
  rw [heq, hnone] at hstep
  cases hstep

/-- **The audit is never stuck**: as long as it has neither raised nor reported, one of its own
calls goes on. -/
theorem Sound.goes_on (hw : w.Sound audit) (hfailure : w.failure = none)
    (hreport : w.report? audit = none) :
    ∃ event, (∀ tables, event ≠ .other tables) ∧ w.step audit event ≠ w := by
  cases hchannel : w.channelId with
  | none =>
      refine ⟨.resolve (some 0) none, fun _ h => (by cases h), fun heq => ?_⟩
      have hstep : (w.step audit (.resolve (some 0) none)).channelId = some 0 := by
        simp [AuditWorld.step, resolve, hfailure, hchannel]
      rw [heq, hchannel] at hstep
      cases hstep
  | some channelId =>
      cases hposter : w.loops .poster with
      | none => exact measure_goes_on hfailure hchannel hposter fun h => (by cases h)
      | some posters =>
          cases hquality : w.loops .quality with
          | none => exact measure_goes_on hfailure hchannel hquality fun _ => by rw [hposter]; rfl
          | some qualities =>
              by_cases hposters : posters.phase = .stopped
              · by_cases hqualities : qualities.phase = .stopped
                · unfold report? at hreport
                  rw [hposter, hquality] at hreport
                  simp [hposters, hqualities] at hreport
                · refine hw.loop_goes_on hfailure hquality ?_ hqualities
                  simp [isTurn, hposter, hposters]
              · refine hw.loop_goes_on hfailure hposter ?_ hposters
                simp [isTurn, hquality]

/-- The first `n` of two lists, from the first `n` of each. -/
theorem take_take_append {α : Type*} (l l' : List α) (n : ℕ) :
    (l.take n ++ l'.take n).take n = (l ++ l').take n := by
  rw [List.take_append, List.take_append, List.take_take, List.take_take, List.length_take,
    Nat.min_self]
  congr 2
  omega

/-- **The audit ends and counts each row once**, whatever other transactions do between its
queries.  Each loop reads at most one page more than its watermark says; it checks no row twice and
none above the watermark, and when it has stopped it has checked every row that was indexed
throughout.  The watermark is the one of the tables it was measured in; a row that is checked was
indexed when its page was read, and its message is what the look-up of its id was answered with.
The report counts the rows that were checked and the ones whose messages were not
available, and shows the first of these, the posters first.  Until it has raised or reported, the
audit can go on. -/
theorem audit_counts_once (audit : IntegrityAudit) (tables : ArchiveTables)
    (events : List AuditEvent) :
    (∀ kind loop, (after audit tables events).loops kind = some loop →
      loop.pages ≤ loop.highWatermark + 1 ∧ loop.seenIds.Nodup ∧
        (∀ id ∈ loop.seenIds, id ≤ loop.highWatermark) ∧
        (loop.phase = .stopped → ∀ id, 0 < id →
          Transition.Always (step audit) (fun w => w.tables.Indexes loop.channelId kind id)
          { tables } events →
            loop.seenIds.count id = 1) ∧
        (∃ pre, pre ++ [.measure kind] <+: events ∧
          loop.highWatermark = (after audit tables pre).tables.highWatermark loop.channelId kind) ∧
        ∀ row message, (row, message) ∈ loop.seen →
          ReadsRow audit tables events loop.channelId kind row ∧
            LooksUp audit tables events kind row message) ∧
      (∀ report, (after audit tables events).report? audit = some report →
        ∃ posters qualities, (after audit tables events).loops .poster = some posters ∧
          (after audit tables events).loops .quality = some qualities ∧
          posters.phase = .stopped ∧ qualities.phase = .stopped ∧
          report = {
            checkedPosters := posters.seen.length
            checkedQualities := qualities.seen.length
            missingPosters := posters.unavailable.length
            missingQualities := qualities.unavailable.length
            missingExamples := (posters.unavailable ++ qualities.unavailable).take
              audit.exampleLimit }) ∧
      ((after audit tables events).failure = none →
        (after audit tables events).report? audit = none →
        ∃ event, (∀ tables, event ≠ .other tables) ∧
          (after audit tables events).step audit event ≠ after audit tables events) := by
  have hw := sound_after audit tables events
  refine ⟨fun kind loop hloop => ?_, fun report hreport => ?_, hw.goes_on⟩
  · have hsound := hw.loops kind loop hloop
    have hnodup : loop.seenIds.Nodup := (List.pairwise_append.1 hsound.ascending).1.imp ne_of_lt
    have htraced := traced_after audit tables events hloop
    refine ⟨hsound.pages_le, hnodup,
      fun id hid => (hsound.bounds id (List.mem_append_left _ hid)).2, ?_, htraced.measured,
      htraced.seen⟩
    intro hstopped id hpos halways
    -- a row that is indexed throughout is covered by the pages, and a stopped loop has none left
    have hcovers := covers_after audit tables events hpos halways hloop rfl
    exact List.count_eq_one_of_mem hnodup (hcovers.stopped hstopped)
  · unfold report? at hreport
    split at hreport
    · next posters qualities hposters hqualities =>
        split at hreport
        · next hstopped =>
            have hp := hw.loops .poster posters hposters
            have hq := hw.loops .quality qualities hqualities
            refine ⟨posters, qualities, hposters, hqualities, hstopped.1, hstopped.2, ?_⟩
            rw [← Option.some.inj hreport, hp.checked, hp.missing, hp.examples, hq.checked,
              hq.missing, hq.examples,
              take_take_append]
        · cases hreport
    · cases hreport

end AuditWorld
end CineGate
