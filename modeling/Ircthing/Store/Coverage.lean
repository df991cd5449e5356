/-
This file proves what a hot ring knows of its buffer.
-/

import Ircthing.Store.Coherence

namespace Ircthing.Store

open Library List Tables

variable {db : Database} {buffer limit : Nat} {message : Message} {ring : Ring}

/-! ### Lines -/

structure Line where
  id : Nat
  ts : Int
  msgid : Bytes
  sender : Bytes
  command : Bytes
  raw : Bytes
  redacted : Bool
  reason : Bytes
deriving DecidableEq

variable {disk : List Line}

def Line.cursor (line : Line) : Cursor := ⟨line.ts, line.id⟩

def Message.line (message : Message) : Line :=
  ⟨message.id, unixMilli message.time, message.msgID, message.sender, message.command,
    message.raw, message.redacted, message.redactReason⟩

def MessageRow.line (row : MessageRow) : Line :=
  ⟨row.id, row.ts, row.msgid.getD [], row.sender, row.command, row.raw, row.redacted,
    row.redactReason.getD []⟩

theorem cursor_line (message : Message) : message.line.cursor = message.cursor := rfl

theorem line_message (row : MessageRow) (network target : Bytes) :
    (row.message network target).line = row.line := by
  unfold Message.line MessageRow.message MessageRow.line
  rw [unixMilli_ofUnixMilli]

theorem map_line_message (rows : List MessageRow) (network target : Bytes) :
    (rows.map (·.message network target)).map Message.line = rows.map MessageRow.line := by
  rw [map_map]
  exact map_congr_left fun row _ => line_message row network target

theorem getD_nullString (text : Bytes) : (nullString text).getD [] = text := by
  unfold nullString
  split
  next empty =>
    rw [empty]
    rfl
  · rfl

/-! ### The lines of a buffer -/

variable (tables : Tables)

def Tables.linesOf (buffer : Nat) : List Line :=
  (tables.rowsOf buffer).map MessageRow.line

theorem rowsOf_ids_nodup (db : Database) (buffer : Nat) : ((db.rowsOf buffer).map (·.id)).Nodup :=
  db.constraints.messageIds.sublist (filter_sublist.map _)

theorem linesOf_nodup : (db.linesOf buffer).Nodup := by
  refine Nodup.of_map Line.id ?_
  unfold linesOf
  rw [map_map]
  exact rowsOf_ids_nodup db buffer

theorem row_eq_of_id {first second : MessageRow} (firstMember : first ∈ db.messages)
    (secondMember : second ∈ db.messages) (same : first.id = second.id) : first = second :=
  inj_on_of_nodup_map db.constraints.messageIds firstMember secondMember same

theorem mem_rowsOf {tables : Tables} {row : MessageRow} :
    row ∈ tables.rowsOf buffer ↔ row ∈ tables.messages ∧ row.bufferId = buffer := by
  simp [rowsOf]

theorem linesOf_keyed : Keyed Line.cursor (db.linesOf buffer) := by
  intro first firstMember second secondMember same
  obtain ⟨firstRow, firstFound, rfl⟩ := mem_map.mp firstMember
  obtain ⟨secondRow, secondFound, rfl⟩ := mem_map.mp secondMember
  have ids : firstRow.id = secondRow.id := by
    have := congrArg Cursor.id same
    exact Int.ofNat.inj this
  rw [row_eq_of_id (mem_rowsOf.mp firstFound).1 (mem_rowsOf.mp secondFound).1 ids]

def Tables.history (buffer : Nat) : List Line :=
  ordered Line.cursor (tables.linesOf buffer)

theorem history_strict :
    StrictlyAscending Line.cursor (db.history buffer) :=
  ordered_ascending linesOf_nodup linesOf_keyed

theorem rows_keyed (db : Database) (buffer : Nat) : Keyed MessageRow.cursor (db.rowsOf buffer) := by
  intro first firstMember second secondMember same
  exact row_eq_of_id (mem_rowsOf.mp firstMember).1 (mem_rowsOf.mp secondMember).1
    (Int.ofNat.inj (congrArg Cursor.id same))

theorem newestFirst_reverse {rows : List MessageRow} (distinct : rows.Nodup)
    (keyed : Keyed MessageRow.cursor rows) : (newestFirst rows).reverse = oldestFirst rows := by
  have sorted : (newestFirst rows).Pairwise fun first second =>
      second.cursor ≤ first.cursor := by
    have : Std.Total fun first second : MessageRow => second.cursor ≤ first.cursor :=
      ⟨fun first second => le_total second.cursor first.cursor⟩
    have : IsTrans MessageRow fun first second : MessageRow => second.cursor ≤ first.cursor :=
      ⟨fun _ _ _ one two => le_trans two one⟩
    exact pairwise_insertionSort _ rows
  have nodup : (newestFirst rows).Pairwise (· ≠ ·) :=
    (Perm.nodup_iff (perm_insertionSort _ rows)).mpr distinct
  have strict : StrictlyAscending MessageRow.cursor (newestFirst rows).reverse := by
    unfold StrictlyAscending
    rw [pairwise_reverse]
    refine (sorted.and nodup).imp_of_mem ?_
    intro first second firstMember secondMember both
    refine lt_of_le_of_ne both.1 fun same => both.2 ?_
    exact keyed first ((mem_insertionSort _).mp firstMember) second
      ((mem_insertionSort _).mp secondMember) same.symm
  refine strict.ext (ordered_ascending distinct keyed) fun row => ?_
  rw [mem_reverse, newestFirst, mem_insertionSort]
  exact mem_ordered.symm

theorem oldestFirst_lines (db : Database) (buffer : Nat) (test : MessageRow → Bool)
    (lineTest : Line → Bool) (same : ∀ row, lineTest row.line = test row) :
    (oldestFirst ((db.rowsOf buffer).filter test)).map MessageRow.line =
      (db.history buffer).filter lineTest := by
  have distinct : ((db.rowsOf buffer).filter test).Nodup :=
    (Nodup.of_map _ (rowsOf_ids_nodup db buffer)).filter _
  have keyed : Keyed MessageRow.cursor ((db.rowsOf buffer).filter test) :=
    fun first firstMember second secondMember => rows_keyed db buffer first
      (mem_of_mem_filter firstMember) second (mem_of_mem_filter secondMember)
  have strict : StrictlyAscending Line.cursor
      ((oldestFirst ((db.rowsOf buffer).filter test)).map MessageRow.line) :=
    pairwise_map.mpr (ordered_ascending distinct keyed)
  refine strict.ext (history_strict.filter _) fun line => ?_
  simp only [mem_map, oldestFirst, mem_ordered, mem_filter, history, linesOf]
  constructor
  · rintro ⟨row, ⟨member, kept⟩, rfl⟩
    exact ⟨⟨row, member, rfl⟩, by rw [same]; exact kept⟩
  · rintro ⟨⟨row, member, rfl⟩, kept⟩
    exact ⟨row, ⟨member, by rw [← same]; exact kept⟩, rfl⟩

theorem queryBefore_lines (db : Database) (buffer : Nat) (cursor : Cursor) (limit : Nat) :
    ((db.queryBefore buffer cursor limit).map MessageRow.line).reverse =
      pageBelow Line.cursor cursor limit (db.history buffer) := by
  have below : (fun row : MessageRow =>
      row.ts < cursor.ts || (row.ts == cursor.ts && row.id < cursor.id)) =
        fun row => decide (row.cursor < cursor) := by
    funext row
    exact cursorLess_eq row.cursor cursor
  unfold queryBefore pageBelow
  rw [below, ← oldestFirst_lines db buffer (fun row => decide (row.cursor < cursor))
    (fun line => decide (line.cursor < cursor)) (fun _ => rfl), ← newestFirst_reverse
      ((Nodup.of_map _ (rowsOf_ids_nodup db buffer)).filter _)
      (fun first firstMember second secondMember => rows_keyed db buffer first
        (mem_of_mem_filter firstMember) second (mem_of_mem_filter secondMember)),
    rtake_eq_reverse_take_reverse, map_reverse, reverse_reverse, map_take]

theorem queryAfter_lines (db : Database) (buffer : Nat) (cursor : Cursor) (limit : Nat) :
    (db.queryAfter buffer cursor limit).map MessageRow.line =
      pageAbove Line.cursor cursor limit (db.history buffer) := by
  have above : (fun row : MessageRow =>
      cursor.ts < row.ts || (row.ts == cursor.ts && cursor.id < row.id)) =
        fun row => decide (cursor < row.cursor) := by
    funext row
    rw [← cursorLess_eq cursor row.cursor, cursorLess, MessageRow.cursor, Bool.beq_comm]
  unfold queryAfter pageAbove
  rw [above, map_take, oldestFirst_lines db buffer (fun row => decide (cursor < row.cursor))
    (fun line => decide (cursor < line.cursor)) (fun _ => rfl)]

variable (network target : Bytes) (cursor : Cursor)

/-- The page the query of `Before` defines, oldest line first. -/
def Tables.pageBefore (limit : Nat) : List Line :=
  match tables.locate network target with
  | none => []
  | some buffer => ((tables.queryBefore buffer cursor limit).map MessageRow.line).reverse

/-- The page the query of `After` defines. -/
def Tables.pageAfter (limit : Nat) : List Line :=
  match tables.locate network target with
  | none => []
  | some buffer => (tables.queryAfter buffer cursor limit).map MessageRow.line

theorem pageBefore_of_located {network target : Bytes}
    (located : db.locate network target = some buffer) (cursor : Cursor) (limit : Nat) :
    db.pageBefore network target cursor limit =
      pageBelow Line.cursor cursor limit (db.history buffer) := by
  rw [pageBefore, located]
  exact queryBefore_lines db buffer cursor limit

theorem pageAfter_of_located {network target : Bytes}
    (located : db.locate network target = some buffer) (cursor : Cursor) (limit : Nat) :
    db.pageAfter network target cursor limit =
      pageAbove Line.cursor cursor limit (db.history buffer) := by
  rw [pageAfter, located]
  exact queryAfter_lines db buffer cursor limit

theorem clampLimit_pos (limit : Int) : 0 < clampLimit limit := by
  unfold clampLimit defaultPageSize maxPageSize
  split
  · omega
  · split <;> omega

/-! ### The lines after an append -/

theorem linesOf_appended {before after : Tables} (appended : Appended before buffer message after)
    (live : message.redacted = false) (silent : message.redactReason = []) (id : Nat) :
    after.linesOf id = if id = buffer then before.linesOf id ++ [(before.stored message).line]
      else before.linesOf id := by
  have stored : ((before.stored message).row buffer).line = (before.stored message).line := by
    unfold Message.row MessageRow.line Message.line
    rw [getD_nullString, stored, live, silent]
    rfl
  unfold linesOf rowsOf
  rw [appended.messages, filter_append, ← stored]
  by_cases same : id = buffer
  · simp [same, Message.row]
  · simp [same, Message.row, Ne.symm same]

theorem stored_fresh (buffer : Nat) (message : Message) :
    ∀ line ∈ tables.linesOf buffer, line.cursor ≠ (tables.stored message).cursor := by
  intro line member same
  obtain ⟨row, held, rfl⟩ := mem_map.mp member
  have used := lt_nextId (mem_map_of_mem (f := fun row => row.id) (mem_rowsOf.mp held).1)
  exact absurd (Int.ofNat.inj (congrArg Cursor.id same)) (Nat.ne_of_lt used)

/-! ### Rings that miss nothing -/

namespace Ring

def lines (ring : Ring) : List Line := ring.msgs.map Message.line

def CoversLines (ring : Ring) (disk : List Line) : Prop :=
  Covers Line.cursor ring.complete ring.lines disk

theorem lines_place (message : Message) (messages : List Message) :
    (place Message.cursor message messages).map Message.line =
      place Line.cursor message.line (messages.map Message.line) :=
  map_place cursor_line message messages

theorem CoversLines.sorted (covers : ring.CoversLines disk) : ring.Sorted := by
  have ascending := covers.ascending
  unfold Ascending lines at ascending
  rw [pairwise_map] at ascending
  exact ascending

theorem CoversLines.of_drop {dropped : Ring} {count : Nat} (covers : ring.CoversLines disk)
    (msgs : dropped.msgs = ring.msgs.drop count)
    (complete : dropped.complete = (ring.complete && count == 0)) : dropped.CoversLines disk := by
  unfold CoversLines lines at covers ⊢
  rw [msgs, map_drop, complete]
  by_cases none : count = 0
  · rw [none, drop_zero]
    simpa using covers
  · rw [show (ring.complete && count == 0) = false by simp [none]]
    exact Covers.drop covers count

theorem CoversLines.insert (covers : ring.CoversLines disk)
    (reaches : ring.msgs = [] →
      ring.complete = true ∨ ∀ other ∈ disk, other.cursor < message.cursor) :
    (ring.insert message).1.CoversLines (message.line :: disk) := by
  rw [CoversLines, insert_eq covers.sorted]
  by_cases refuses : ring.Refuses message
  · rw [if_pos refuses]
    obtain ⟨incomplete, oldest, head, older⟩ := refuses
    have partly : Covers Line.cursor false ring.lines disk := incomplete ▸ covers
    rw [incomplete]
    have first : oldest.line ∈ ring.lines.head? := by
      rw [lines, head?_map]
      exact Option.mem_map_of_mem _ head
    exact partly.skip first older
  · rw [if_neg refuses]
    have placed : Covers Line.cursor ring.complete
        (place Line.cursor message.line ring.lines) (message.line :: disk) := by
      refine Covers.insert covers ?_
      rcases empty : ring.msgs with - | ⟨oldest, _⟩
      · exact (reaches empty).imp_right .inr
      · by_cases complete : ring.complete = true
        · exact .inl complete
        · refine .inr (.inl ⟨oldest.line, by rw [lines, empty]; rfl, ?_⟩)
          refine not_lt.mp fun older => refuses ⟨by simpa using complete, oldest, ?_, older⟩
          rw [empty]
          rfl
    dsimp only
    split
    · rw [lines, map_drop, lines_place]
      exact placed.drop 1
    · rw [lines, lines_place]
      exact placed

structure Current (ring : Ring) (disk : List Line) : Prop where
  strict : StrictlyAscending Line.cursor ring.lines
  sound : ∀ line ∈ ring.lines, line ∈ disk

structure Tracks (ring : Ring) (disk : List Line) : Prop extends ring.Current disk where
  covers : ring.CoversLines disk
  whole : ring.msgs = [] → ring.complete = true
  room : 0 < ring.max

namespace Tracks

variable {ring : Ring} {disk : List Line}

section

variable (tracks : ring.Tracks disk)
include tracks

theorem congr {other : List Line}
    (same : ∀ line, line ∈ other ↔ line ∈ disk) : ring.Tracks other where
  covers := Covers.of_keys tracks.covers fun line member => ⟨line, (same line).mp member, rfl⟩
  strict := tracks.strict
  sound line member := (same line).mpr (tracks.sound line member)
  whole := tracks.whole
  room := tracks.room

theorem stamped (sequence : Nat) :
    { ring with lastUsed := sequence }.Tracks disk where
  covers := tracks.covers
  strict := tracks.strict
  sound := tracks.sound
  whole := tracks.whole
  room := tracks.room

theorem trimToBytes (limit : Nat) : (ring.trimToBytes limit).1.Tracks disk := by
  obtain ⟨count, msgs, complete, max, bounded⟩ := trimToBytes_eq ring limit
  have lines : (ring.trimToBytes limit).1.lines = ring.lines.drop count := by
    rw [Ring.lines, msgs, map_drop, Ring.lines]
  refine ⟨⟨?_, ?_⟩, tracks.covers.of_drop msgs complete, ?_, by rw [max]; exact tracks.room⟩
  · rw [lines]
    exact tracks.strict.drop count
  · rw [lines]
    exact fun line member => tracks.sound line (mem_of_mem_drop member)
  · intro empty
    rw [msgs, drop_eq_nil_iff] at empty
    have none : count = 0 := by
      rcases bounded with none | fewer <;> omega
    rw [complete, none, tracks.whole (length_eq_zero_iff.mp (by omega))]
    rfl

theorem insert (fresh : ∀ line ∈ disk, line.cursor ≠ message.cursor) :
    (ring.insert message).1.Tracks (message.line :: disk) := by
  have covers : (ring.insert message).1.CoversLines (message.line :: disk) :=
    tracks.covers.insert fun empty => .inl (tracks.whole empty)
  have freshHot : ∀ line ∈ ring.lines, line.cursor ≠ message.line.cursor :=
    fun line member => fresh line (tracks.sound line member)
  have placed := tracks.strict.place freshHot
  have soundPlaced : ∀ line ∈ place Line.cursor message.line ring.lines,
      line ∈ message.line :: disk := by
    intro line member
    rcases mem_place.mp member with rfl | old
    · exact mem_cons_self
    · exact .tail _ (tracks.sound line old)
  have length : (place Message.cursor message ring.msgs).length = ring.msgs.length + 1 :=
    length_place _ _ _
  have room := tracks.room
  rw [insert_eq tracks.covers.sorted] at covers ⊢
  by_cases refuses : ring.Refuses message
  · rw [if_pos refuses] at covers ⊢
    exact ⟨⟨tracks.strict, fun line member => .tail _ (tracks.sound line member)⟩,
      covers, tracks.whole, room⟩
  · rw [if_neg refuses] at covers ⊢
    dsimp only at covers ⊢
    have lines := lines_place message ring.msgs
    split at covers <;> rename_i full
    · rw [if_pos full]
      refine ⟨⟨?_, ?_⟩, covers, fun empty => ?_, room⟩
      · rw [Ring.lines, map_drop, lines]
        exact placed.drop 1
      · rw [Ring.lines, map_drop, lines]
        exact fun line member => soundPlaced line (mem_of_mem_drop member)
      · rw [drop_eq_nil_iff] at empty
        omega
    · rw [if_neg full]
      refine ⟨⟨?_, ?_⟩, covers, fun empty => ?_, room⟩
      · rw [Ring.lines, lines]
        exact placed
      · rw [Ring.lines, lines]
        exact soundPlaced
      · change place Message.cursor message ring.msgs = [] at empty
        rw [empty] at length
        simp at length

theorem rewrite {next : Ring} {change : Line → Line}
    (keeps : ∀ line, (change line).cursor = line.cursor)
    (lines : next.lines = ring.lines.map change) (complete : next.complete = ring.complete)
    (max : next.max = ring.max) : next.Tracks (disk.map change) where
  covers := by
    rw [CoversLines, lines, complete]
    exact Covers.map tracks.covers keeps keeps
  strict := by
    rw [lines]
    refine pairwise_map.mpr (tracks.strict.imp fun order => ?_)
    rwa [keeps, keeps]
  sound := by
    rw [lines]
    intro line member
    obtain ⟨source, held, rfl⟩ := mem_map.mp member
    exact mem_map_of_mem (tracks.sound source held)
  whole empty := by
    rw [complete]
    have none : ring.lines.map change = [] := by
      rw [← lines, Ring.lines, empty]
      rfl
    exact tracks.whole (map_eq_nil_iff.mp (map_eq_nil_iff.mp none))
  room := by rw [max]; exact tracks.room

end

end Tracks

theorem new_tracks {size : Nat} (positive : 0 < size) :
    { Ring.new size with complete := true }.Tracks [] where
  covers := ⟨Pairwise.nil, nofun⟩
  strict := Pairwise.nil
  sound _ member := absurd member not_mem_nil
  whole _ := rfl
  room := positive

theorem history_covers (db : Database) (buffer : Nat) :
    Covers Line.cursor true (db.history buffer) (db.linesOf buffer) :=
  ⟨history_strict.weaken, fun line member _ => ⟨line, mem_ordered.mpr member, rfl⟩⟩

theorem tracks_of_suffix (count : Nat) (lines : ring.lines = (db.history buffer).drop count)
    (complete : ring.complete = true → ring.lines = db.history buffer)
    (whole : ring.msgs = [] → ring.complete = true) (room : 0 < ring.max) :
    ring.Tracks (db.linesOf buffer) where
  covers := by
    rw [CoversLines]
    cases answer : ring.complete with
    | true => rw [complete answer]; exact history_covers db buffer
    | false => rw [lines]; exact (history_covers db buffer).drop count
  strict := by
    rw [lines]
    exact history_strict.drop count
  sound line member := by
    rw [lines] at member
    exact mem_ordered.mp (mem_of_mem_drop member)
  whole := whole
  room := room

end Ring

/-! ### Pages -/

theorem pageBefore_window (covers : ring.CoversLines disk)
    {cursor : Cursor} (answers : (ring.pageBefore cursor limit).2 = true) :
    (ring.pageBefore cursor limit).1.map Message.line =
        pageBelow Line.cursor cursor limit ring.lines ∧
      (ring.complete = true ∨ (pageBelow Line.cursor cursor limit ring.lines).length = limit) := by
  have same : (pageBelow Message.cursor cursor limit ring.msgs).map Message.line =
      pageBelow Line.cursor cursor limit (ring.msgs.map Message.line) :=
    map_pageBelow cursor_line cursor limit ring.msgs
  rw [Ring.pageBefore_eq covers.sorted] at answers ⊢
  refine ⟨same, ?_⟩
  rw [Bool.or_eq_true, beq_iff_eq] at answers
  rwa [Ring.lines, ← same, length_map]

theorem pageAfter_window (covers : ring.CoversLines disk)
    {cursor : Cursor} (answers : (ring.pageAfter cursor limit).2 = true) :
    (ring.pageAfter cursor limit).1.map Message.line =
        pageAbove Line.cursor cursor limit ring.lines ∧
      (ring.complete = true ∨ ∃ oldest ∈ ring.lines.head?, oldest.cursor ≤ cursor) := by
  have same : (pageAbove Message.cursor cursor limit ring.msgs).map Message.line =
      pageAbove Line.cursor cursor limit (ring.msgs.map Message.line) :=
    map_pageAbove cursor_line cursor limit ring.msgs
  rw [Ring.pageAfter_eq covers.sorted] at answers ⊢
  refine ⟨same, ?_⟩
  rw [Bool.or_eq_true, Option.any_eq_true] at answers
  refine answers.imp_right ?_
  rintro ⟨oldest, head, order⟩
  refine ⟨oldest.line, ?_, of_decide_eq_true order⟩
  rw [Ring.lines, head?_map, head]
  rfl

theorem pageBefore_lines (covers : ring.CoversLines (db.linesOf buffer))
    (current : ring.Current (db.linesOf buffer)) {cursor : Cursor} (positive : 0 < limit)
    (answers : (ring.pageBefore cursor limit).2 = true) :
    (ring.pageBefore cursor limit).1.map Message.line =
      pageBelow Line.cursor cursor limit (db.history buffer) := by
  obtain ⟨lines, served⟩ := pageBefore_window covers answers
  rw [lines]
  exact Covers.pageBelow_eq covers current.strict linesOf_nodup
    linesOf_keyed current.sound positive served

theorem pageAfter_lines (covers : ring.CoversLines (db.linesOf buffer))
    (current : ring.Current (db.linesOf buffer)) {cursor : Cursor}
    (answers : (ring.pageAfter cursor limit).2 = true) :
    (ring.pageAfter cursor limit).1.map Message.line =
      pageAbove Line.cursor cursor limit (db.history buffer) := by
  obtain ⟨lines, served⟩ := pageAfter_window covers answers
  rw [lines]
  exact Covers.pageAbove_eq covers current.strict linesOf_nodup
    linesOf_keyed current.sound served

end Ircthing.Store
