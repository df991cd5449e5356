/-
This file proves for which lengths a stored message can be redacted by the target and the msgid it
came with.
-/

import Ircthing.Hub.Redaction

namespace Ircthing.Hub

open Library Effect List Store Tables
open Store (Fault)

variable {store next : Store} {network target name msgid reason : Bytes}
  {fold : Option (Bytes → Bytes)} {row : MessageRow} {create done : Bool}

/-! ### The spelling of a target after it was opened -/

theorem bufferNamesOf_turn (turn : BufferTurn network name create store next) :
    ∃ added, next.db.bufferNamesOf network = store.db.bufferNamesOf network ++ added ∧
      ∀ other ∈ added, other = name := by
  have scans : ∀ {reached : Store}, NetworkTurn network create store reached →
      reached.db.bufferNamesOf network = store.db.bufferNamesOf network := by
    intro reached turn
    unfold bufferNamesOf
    rw [turn.rows]
    refine congrArg _ (filter_congr fun row member => ?_)
    rw [decide_eq_decide, reached.db.networkId_eq_some, store.db.networkId_eq_some]
    obtain ⟨added, networks⟩ := turn.grown.networks
    refine ⟨fun inside => (turn.under row ⟨turn.rows ▸ member, inside⟩).2, fun inside => ?_⟩
    rw [networks]
    exact mem_append_left _ inside
  cases turn with
  | resolved turn | cached turn => exact ⟨[], by rw [scans turn, append_nil], nofun⟩
  | @created reached netID db turn _ _ _ _ written =>
    rw [← scans turn]
    show ∃ added, db.bufferNamesOf network = _ ∧ _
    unfold bufferNamesOf Tables.networkId
    rw [written, filter_append, map_append]
    refine ⟨_, rfl, fun other member => ?_⟩
    obtain ⟨row, held, rfl⟩ := mem_map.mp member
    cases mem_singleton.mp (mem_of_mem_filter held)
    rfl

theorem resolvedName_again (named : store.resolvedName network target fold = name)
    (turn : BufferTurn network name create store next) :
    next.resolvedName network target fold = name := by
  cases fold with
  | none => exact named
  | some fold =>
    obtain ⟨added, names, own⟩ := bufferNamesOf_turn turn
    have scans : next.db.foldedName network target fold =
        (store.db.foldedName network target fold).or
          (added.find? fun other => fold other == fold target) := by
      unfold foldedName
      rw [names, find?_append]
    change (if _ then target else _) = name at named
    change (if _ then target else _) = name
    rw [scans]
    by_cases cached : (store.buffers.lookup (network, target)).isSome = true
    · rw [if_pos cached] at named
      rw [if_pos, named]
      by_contra missing
      rw [turn.stays (Option.not_isSome_iff_eq_none.mp missing)] at cached
      cases cached
    rw [if_neg cached] at named
    split
    next now =>
      by_contra different
      rw [turn.others fun same => different (Prod.mk.inj same).2] at now
      exact cached now
    · cases found : store.db.foldedName network target fold with
      | some =>
        rw [found] at named
        exact named
      | none =>
        rw [found] at named
        cases more : added.find? fun other => fold other == fold target with
        | none => exact named
        | some other => exact own other (mem_of_find?_eq_some more)

theorem resolvedName_onlyRings (only : OnlyRings store next) :
    next.resolvedName network target fold = store.resolvedName network target fold := by
  unfold resolvedName canonicalName
  rw [only.buffers, only.db]

theorem resolvedName_appended {buffer : Nat} {message : Message} {db : Database}
    (appended : Appended store.db.toTables buffer message db.toTables) :
    { store with db := db }.resolvedName network target fold =
      store.resolvedName network target fold := by
  obtain ⟨_, buffers, keeps⟩ := appended.buffers
  have names : db.bufferNamesOf network = store.db.bufferNamesOf network := by
    unfold bufferNamesOf Tables.networkId
    rw [buffers, appended.networks, filter_map, map_map]
    simp only [Function.comp_def, keeps]
  unfold resolvedName canonicalName foldedName
  rw [names]

theorem length_resolvedName (keeps : ∀ used, fold = some used → ∀ name,
      (used name).length = name.length) :
    (store.resolvedName network target fold).length = target.length := by
  cases fold with
  | none => rfl
  | some fold =>
    change (if _ then target else _).length = _
    split
    · rfl
    cases found : store.db.foldedName network target fold with
    | none => rfl
    | some name =>
      have passes := find?_some found
      have alike : fold name = fold target := beq_iff_eq.mp passes
      rw [Option.getD_some, ← keeps fold rfl name, alike, keeps fold rfl]

/-! ### The row of an append and its redaction -/

structure FiledRow (network target msgid : Bytes) (fold : Option (Bytes → Bytes)) (store : Store)
    (row : MessageRow) : Prop where
  cached : store.buffers.lookup (network, store.resolvedName network
    (clampUTF8 target maxStoredFieldBytes) fold) = some row.bufferId
  member : row ∈ store.db.messages
  marked : row.msgid = nullString (clampMsgID msgid)
  shown : row.redacted = false

theorem append_filedRow {fault vetoFault : Fault} {now : Int} (message : Message)
    (opts : AppendOpts)
    (stored : (final (append fault vetoFault now network target message opts)
      store).db.messages = store.db.messages ++ [row]) :
    FiledRow network target message.msgID opts.fold
      (final (append fault vetoFault now network target message opts) store) row := by
  generalize named : store.resolvedName network (clampUTF8 target maxStoredFieldBytes)
    opts.fold = name
  have files : wp (append fault vetoFault now network target message opts)
      (fun _ last => last.db.messages = store.db.messages ++ [row] →
        FiledRow network target message.msgID opts.fold last row)
      (fun _ last => last.db.messages = store.db.messages ++ [row] →
        FiledRow network target message.msgID opts.fold last row) store := by
    have nothing : ∀ {asked last found}, BufferTurn network name false store asked →
        RingTurn network name opts.create asked found last →
        last.db.messages = store.db.messages := by
      intro asked last found looked opened
      obtain ⟨reached, turn, only, -⟩ := opened.only
      rw [only.db, turn.grown.messages, looked.grown.messages]
    refine wp_mono (append_turn named) ?_ ?_
    · intro value last turn stored
      cases turn with
      | unstored _ looked opened =>
        rw [nothing looked opened, self_eq_append_right] at stored
        cases stored
      | @stored asked reached buffer db archived looked opened committed =>
        have appended := committed.appended
        have only := refreshRing_only { reached with db := db } buffer fun ring =>
          ring.insert (reached.db.stored (message.filed now network name))
        obtain ⟨_, turn, rings, cached⟩ := opened.only
        have kept : db.messages = store.db.messages ++ [row] := by
          rw [← stored, only.db]
        rw [appended.messages, nothing looked opened] at kept
        obtain rfl := singleton_inj.mp (append_cancel_left kept)
        refine ⟨?_, by rw [stored]; exact mem_append_right _ mem_cons_self, rfl, rfl⟩
        rw [resolvedName_onlyRings only, resolvedName_appended appended,
          resolvedName_onlyRings rings, only.buffers,
          resolvedName_again (resolvedName_again named looked) turn]
        exact rings.buffers ▸ cached buffer rfl
    · intro reason last turn stored
      cases turn with
      | unstored _ looked opened =>
        rw [nothing looked opened, self_eq_append_right] at stored
        cases stored
  exact wp_final files stored

/-- `CanonicalBuffer`, and then `SetRedacted` in the buffer it names, when no statement fails. -/
def redactCanonical (network target : Bytes) (fold : Option (Bytes → Bytes))
    (msgid reason : Bytes) : Store.Action Bool := do
  let name ← resolveTarget noFault network target fold
  setRedacted noFault network name msgid reason

theorem redactCanonical_turn (given : msgid ≠ []) :
    wp (redactCanonical network target fold msgid reason)
      (fun done next => RewriteTurn (redaction msgid reason) network
        (store.resolvedName network target fold) store done next)
      (fun _ _ => False) store := by
  unfold redactCanonical
  refine wp_seq resolveTarget_named ?_ ?_
  · rintro _ _ ⟨rfl, rfl⟩
    refine wp_mono setRedacted_turn ?_ ?_
    · rintro done last (⟨empty, -⟩ | ⟨-, turn⟩)
      · exact absurd empty given
      · exact turn
    · rintro _ _ ⟨-, statement, impossible⟩
      cases impossible
  · rintro _ _ ⟨-, statement, impossible⟩
    cases impossible

theorem scrubs_cached (turn : RewriteTurn (redaction msgid reason) network name store done next)
    (cached : store.buffers.lookup (network, name) = some row.bufferId)
    (member : row ∈ store.db.messages) (marked : row.msgid = some (clampMsgID msgid))
    (shown : row.redacted = false) : done = true ∧ Scrubbed next.db.toTables row := by
  have redactable := redactable_row member marked shown
  cases turn with
  | missed turn nothing =>
    have kept := turn.kept cached
    rcases nothing with nowhere | ⟨_, again, missing⟩
    · cases nowhere.1.symm.trans kept
    · cases again.symm.trans kept
      rw [turn.reads.1] at missing
      cases missing.symm.trans redactable
  | hit turn again found written =>
    cases again.symm.trans (turn.kept cached)
    rw [turn.reads.1] at found
    cases found.symm.trans redactable
    refine ⟨rfl, (redaction msgid reason).row row, ?_, rfl, rfl, rfl, rfl⟩
    rw [(refreshRing_only _ _ _).db]
    rw [written, turn.reads.1]
    exact mem_map.mpr ⟨row, member, if_pos rfl⟩

theorem picked_of_scrubbed
    (turn : RewriteTurn (redaction msgid reason) network name store done next)
    (member : row ∈ store.db.messages) (shown : row.redacted = false)
    (scrubbed : Scrubbed next.db.toTables row) :
    row.msgid = some (clampMsgID msgid) ∧ ∃ reached,
      BufferTurn network name false store reached ∧
        reached.buffers.lookup (network, name) = some row.bufferId := by
  obtain ⟨_, held, same, redacted, -⟩ := scrubbed
  cases turn with
  | missed turn =>
    rw [turn.reads.1] at held
    rw [row_eq_of_id held member same, shown] at redacted
    cases redacted
  | @hit reached buffer picked db turn cached found written =>
    rw [(refreshRing_only _ _ _).db] at held
    rw [written, turn.reads.1] at held
    obtain ⟨_, kept, rfl⟩ := mem_map.mp held
    obtain ⟨inBuffer, marked, -⟩ := redactable_eq_some found
    obtain ⟨pickedHeld, rfl⟩ := mem_rowsOf.mp inBuffer
    rw [turn.reads.1] at pickedHeld
    split at same
    next hit =>
      obtain rfl := row_eq_of_id pickedHeld member (hit.symm.trans same)
      exact ⟨marked, reached, turn, cached⟩
    next other =>
      rw [if_neg other, row_eq_of_id kept member same, shown] at redacted
      cases redacted

/-- The row an append stored is found again by its target and msgid, when the target is not cut and
something of the msgid is left; only then, where the caches agree and the fold keeps lengths. -/
theorem stored_row_redactable (fault vetoFault : Fault) (now : Int) {message : Message}
    (opts : AppendOpts) (reason : Bytes) (given : message.msgID ≠ [])
    (stored : (final (append fault vetoFault now network target message opts)
      store).db.messages = store.db.messages ++ [row]) :
    (target.length ≤ maxStoredFieldBytes ∧ clampMsgID message.msgID ≠ [] →
      wp (redactCanonical network target opts.fold message.msgID reason)
        (fun done last => done = true ∧ Scrubbed last.db.toTables row) (fun _ _ => False)
        (final (append fault vetoFault now network target message opts) store)) ∧
    (store.Coherent →
      (∀ fold, opts.fold = some fold → ∀ name, (fold name).length = name.length) →
      ¬(target.length ≤ maxStoredFieldBytes ∧ clampMsgID message.msgID ≠ []) →
      wp (redactCanonical network target opts.fold message.msgID reason)
        (fun _ last => ¬Scrubbed last.db.toTables row) (fun _ _ => False)
        (final (append fault vetoFault now network target message opts) store)) := by
  obtain ⟨cached, member, marked, shown⟩ := append_filedRow message opts stored
  constructor
  · rintro ⟨short, left⟩
    rw [clampUTF8_of_le short] at cached
    rw [nullString, if_neg left] at marked
    exact wp_mono (redactCanonical_turn given)
      (fun _ _ turn => scrubs_cached turn cached member marked shown) fun _ _ => id
  · intro coherent keeps cut
    refine wp_mono (redactCanonical_turn given) (fun done last turn scrubbed => cut ?_)
      fun _ _ failed => failed
    obtain ⟨picked, _, looked, again⟩ := picked_of_scrubbed turn member shown scrubbed
    have appended : Coherent (final _ store) :=
      coherent_survives.append coherent fault vetoFault now network target message opts
    have located := (looked.coherent appended).buffers again
    rw [looked.reads.1] at located
    have same := congrArg length (locate_name located (appended.buffers cached))
    rw [length_resolvedName keeps, length_resolvedName keeps] at same
    refine ⟨same ▸ length_clampUTF8_le target _, fun blank => ?_⟩
    rw [marked, blank] at picked
    cases picked

/-- A first start, and a message with the msgid `m1` to a target. -/
def messageTo (target : Bytes) : Store :=
  final (append noFault noFault 1 (lit "net") target
    { msgID := lit "m1", raw := lit "hi" } { create := true }) (fresh 2 4096)

theorem channel_message_redacted :
    wp (redactCanonical (lit "net") (lit "#go") none (lit "m1") [])
      (fun done last => done = true ∧ Scrubbed last.db.toTables
        ⟨1, 1, 0, some (lit "m1"), [], [], lit "hi", none, false, none⟩)
      (fun _ _ => False) (messageTo (lit "#go")) := by
  have given : ({ msgID := lit "m1", raw := lit "hi" } : Message).msgID ≠ [] := by decide
  have stored : (messageTo (lit "#go")).db.messages = (fresh 2 4096).db.messages ++
      [⟨1, 1, 0, some (lit "m1"), [], [], lit "hi", none, false, none⟩] := by decide +kernel
  exact (stored_row_redactable noFault noFault 1 _ [] given stored).1 (by decide +kernel)

/-- A target of 513 bytes is stored under its first 512 bytes and looked up under all of them. -/
theorem long_target_not_redacted :
    (∃ row ∈ (messageTo (replicate 513 0x61)).db.messages, row.msgid = some (lit "m1")) ∧
      ∀ row ∈ (final (redactCanonical (lit "net") (replicate 513 0x61) none (lit "m1")
        []) (messageTo (replicate 513 0x61))).db.messages, row.redacted = false := by
  decide +kernel

end Ircthing.Hub
