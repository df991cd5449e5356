/-
This file proves what the roster keeps over every run of a connection.
-/

import Ircthing.Irc.RosterInvariants

namespace Ircthing.Irc

open Library Relation Connection

/-! ### Runs of a connection -/

section Runs

variable {limits : Limits} {nick : Bytes} {connection next : Connection}
variable {line : IrcMessage}

theorem processLine_eq_some {playback : Bool}
    (processed : connection.processLine limits playback line = some next) :
    next.isup = connection.isup.handle line ∧
      (playback = true ∧ next.roster = connection.roster ∨ playback = false ∧
        ∃ ourNick, next.roster = connection.roster.handle limits next.isup ourNick line) := by
  cases playback with
  | true =>
    cases processed
    exact ⟨rfl, .inl ⟨rfl, rfl⟩⟩
  | false =>
    unfold processLine onLiveLine at processed
    rw [if_neg Bool.false_ne_true] at processed
    split at processed
    · cases processed
    · cases processed
      exact ⟨rfl, .inr ⟨rfl, _, rfl⟩⟩

theorem processLine_moves (bounded lean : Prop) {playback : Bool}
    (processed : connection.processLine limits playback line = some next)
    (fits : bounded → JoinFits limits next.isup connection.roster line)
    (restrained : lean → Restrained limits next.isup connection.roster line) :
    Moves limits next.isup bounded lean connection.roster next.roster := by
  obtain ⟨-, ⟨-, kept⟩ | ⟨-, ourNick, handled⟩⟩ := processLine_eq_some processed
  · rw [kept]
  · rw [handled]
    exact moves_handle ourNick connection.roster line fits restrained

theorem Connection.Run.keep {met : Connection → IrcMessage → Prop} {motive : Connection → Prop}
    (step : ∀ connection next playback line, met connection line →
      connection.processLine limits playback line = some next → motive connection → motive next)
    (run : connection.Run limits met next) (start : motive connection) : motive next := by
  induction run with
  | refl => exact start
  | tail _ last ih =>
    obtain ⟨playback, line, holds, processed⟩ := last
    exact step _ _ playback line holds processed ih

def afterLines (limits : Limits) (connection : Connection) : List IrcMessage → Connection
  | [] => connection
  | line :: rest =>
    match connection.processLine limits false line with
    | none => connection
    | some next => afterLines limits next rest

theorem run_afterLines (lines : List IrcMessage) (start : Connection) :
    start.Run limits (fun _ _ => True) (afterLines limits start lines) := by
  induction lines generalizing start with
  | nil => exact .refl
  | cons line _ ih =>
    rw [afterLines]
    cases processed : start.processLine limits false line with
    | none => exact .refl
    | some middle => exact .head ⟨false, line, trivial, processed⟩ (ih middle)

def lineFrom (source : Source) (command : String) (params : List String) : IrcMessage :=
  { source, command := lit command, params := params.map lit }

/-! ### Exact bytes -/

theorem exact_of_reachable (reached : Reachable limits nick connection) :
    Each (fun _ st => st.Exact) connection.roster := by
  refine Run.keep (motive := fun connection =>
    Each (fun _ st => st.Exact) connection.roster) (fun _ _ _ _ _ processed exact_ => ?_) reached
    nofun
  exact (processLine_moves False False processed nofun nofun).exact exact_

/-- In every reachable state the running byte count of every channel is the length of its topic
plus the bytes of every entry of its two maps. -/
theorem byte_accounting_exact (reached : Reachable limits nick connection) :
    ∀ channel st, connection.roster.lookup channel = some st →
      st.bytes = st.topic.length + st.members.total memberBytes +
        (st.pending.getD ∅).total memberBytes :=
  exact_of_reachable reached

def me : Source := { name := lit "me", user := lit "user", host := lit "host" }

/-- We are in a channel with a topic, and a NAMES burst is in flight that has told us less about
ourselves than our JOIN. -/
def namesInFlight (limits : Limits) : Connection :=
  afterLines limits { nick := lit "me" }
    [lineFrom me "JOIN" ["#go"], lineFrom me "TOPIC" ["#go", "news"],
      lineFrom { name := lit "server" } "353" ["me", "=", "#go", "me @ada"]]

theorem byte_accounting_exact_namesInFlight :
    ((namesInFlight {}).roster.lookup (lit "#go")).map (·.bytes) = some 315 ∧
      ∀ channel st, (namesInFlight {}).roster.lookup channel = some st →
        st.bytes = st.topic.length + st.members.total memberBytes +
          (st.pending.getD ∅).total memberBytes :=
  ⟨by decide +kernel, byte_accounting_exact (run_afterLines _ _)⟩

/-! ### Folded keys -/

/-- The condition under which the keys of the roster stay folds: the parameters a line leaves fold
every stored name and nick as before. -/
def RefoldsAlike (connection : Connection) (line : IrcMessage) : Prop :=
  ∀ channel st, connection.roster.lookup channel = some st →
    (connection.isup.handle line).fold st.name = connection.isup.fold st.name ∧
    ∀ half key member, (st.half half).lookup key = some member →
      (connection.isup.handle line).fold member.nick = connection.isup.fold member.nick

/-- In every run whose 005 lines change the fold of no stored name, channels and members stand under
the folds of their names and nicks. -/
theorem keys_follow_casemapping (run : Run limits RefoldsAlike { nick } connection) :
    ∀ channel st, connection.roster.lookup channel = some st →
      channel = connection.isup.fold st.name ∧
      (∀ key member, st.members.lookup key = some member → key = connection.isup.fold member.nick) ∧
      (∀ pending key member, st.pending = some pending → pending.lookup key = some member →
        key = connection.isup.fold member.nick) := by
  have folded : Each (Folded connection.isup) connection.roster := by
    refine Run.keep (motive := fun connection =>
      Each (Folded connection.isup) connection.roster)
      (fun connection next playback line alike processed folded => ?_) run
      nofun
    have updated := (processLine_eq_some processed).1
    refine (processLine_moves False False processed nofun nofun).folded fun channel st found => ?_
    obtain ⟨sameName, sameNicks⟩ := alike channel st found
    obtain ⟨named, keyed⟩ := folded channel st found
    rw [updated]
    exact ⟨named.trans sameName.symm, fun half key member held =>
      (keyed half key member held).trans (sameNicks half key member held).symm⟩
  intro channel st found
  obtain ⟨named, keyed⟩ := folded channel st found
  refine ⟨named, keyed .members, fun pending key member burst held => keyed .pending key member ?_⟩
  rw [show st.half .pending = pending from congrArg (·.getD ∅) burst]
  exact held

def asciiMapping : IrcMessage :=
  lineFrom { name := lit "server" } "005" ["me", "CASEMAPPING=ascii", "are supported"]

def joinedAfterMapping : Connection :=
  afterLines {} { nick := lit "me" } [asciiMapping, lineFrom me "JOIN" ["#~"]]

theorem keys_follow_casemapping_joinedAfterMapping :
    joinedAfterMapping.roster.lookup (lit "#~") ≠ none ∧
      ∀ channel st, joinedAfterMapping.roster.lookup channel = some st →
        channel = joinedAfterMapping.isup.fold st.name := by
  refine ⟨by decide +kernel, fun channel st found => ?_⟩
  exact (keys_follow_casemapping (.head ⟨false, asciiMapping, nofun, rfl⟩
    (.single ⟨false, lineFrom me "JOIN" ["#~"], nofun, rfl⟩)) channel st found).1

def joinedBeforeMapping : Connection :=
  afterLines {} { nick := lit "me" } [lineFrom me "JOIN" ["#~"], asciiMapping]

/-- A casemapping that comes after a JOIN strands the channel: it stays under its old key, and the
lines that name it no longer find it. -/
theorem late_casemapping_strands_channel :
    Reachable {} (lit "me") joinedBeforeMapping ∧
      (joinedBeforeMapping.roster.lookup (lit "#^")).map (·.name) = some (lit "#~") ∧
      joinedBeforeMapping.isup.fold (lit "#~") ≠ lit "#^" :=
  ⟨run_afterLines _ _, by decide +kernel⟩

/-! ### Ceilings -/

theorem JoinFits.handle {isup : ISupport} {roster : Roster}
    (fits : JoinFits limits isup roster line) : JoinFits limits (isup.handle line) roster line := by
  intro join
  rw [ISupport.handle_of_command_ne (by rw [join]; decide)]
  exact fits join

/-- In every run whose JOINs find room in the pending map they are copied into, the roster stays
within all its ceilings. -/
theorem count_bounds (run : Run limits (fun connection line =>
      JoinFits limits connection.isup connection.roster line) { nick } connection) :
    connection.roster.size ≤ limits.maxRosterChannels ∧
      (∀ channel st, connection.roster.lookup channel = some st →
        st.members.size ≤ limits.maxChannelMembers ∧
          (st.pending.getD ∅).size ≤ limits.maxChannelMembers) ∧
      connection.roster.totalMembers ≤ limits.maxRosterMembers := by
  have within : Within limits connection.roster := by
    refine Run.keep (motive := fun connection => Within limits connection.roster)
      (fun connection next playback line fits processed within => ?_) run ?_
    · have updated := (processLine_eq_some processed).1
      refine (processLine_moves True False processed (fun _ => ?_) nofun).within within
      rw [updated]
      exact fits.handle
    · exact ⟨Nat.zero_le _, fun _ _ impossible => (nomatch impossible), Int.natCast_nonneg _⟩
  exact ⟨within.channels, fun channel st found =>
    ⟨within.capped channel st found .members, within.capped channel st found .pending⟩,
    within.members⟩

def bobJoins : IrcMessage := lineFrom { name := lit "bob" } "JOIN" ["#go"]

theorem count_bounds_bobJoins :
    (afterLines {} (namesInFlight {}) [bobJoins]).roster.totalMembers = 5 ∧
      (afterLines {} (namesInFlight {}) [bobJoins]).roster.totalMembers ≤ 100000 := by
  have room : ((namesInFlight {}).roster.lookup (lit "#go")).all
      (fun st => (st.half .pending).size < 25000) = true := by decide +kernel
  have fits : JoinFits {} (namesInFlight {}).isup (namesInFlight {}).roster bobJoins := by
    intro _ st found pending burst _ _ _ _
    rw [show (namesInFlight {}).roster.lookup (lit "#go") = some st from found,
      Option.all_some, show st.half .pending = pending from congrArg (·.getD ∅) burst] at room
    exact of_decide_eq_true room
  have run : Run {} (fun connection line =>
      JoinFits {} connection.isup connection.roster line) { nick := lit "me" }
      (afterLines {} (namesInFlight {}) [bobJoins]) :=
    .tail (.tail (.tail (.single ⟨false, lineFrom me "JOIN" ["#go"], nofun, rfl⟩)
      ⟨false, lineFrom me "TOPIC" ["#go", "news"], nofun, rfl⟩)
      ⟨false, lineFrom { name := lit "server" } "353" ["me", "=", "#go", "me @ada"], nofun, rfl⟩)
      ⟨false, bobJoins, fits, rfl⟩
  exact ⟨by decide +kernel, (count_bounds run).2.2⟩

def fewMembers : Limits := { maxChannelMembers := 2 }

/-- A JOIN during a NAMES burst that has reached the ceiling of the channel is copied into it, and
the end of the burst makes it the member map. -/
theorem join_overfills_pending :
    Reachable fewMembers (lit "me")
        (afterLines fewMembers (namesInFlight fewMembers) [bobJoins]) ∧
      ((afterLines fewMembers (namesInFlight fewMembers) [bobJoins]).roster.lookup
        (lit "#go")).map (fun st => (st.half .pending).size) = some 3 :=
  ⟨(run_afterLines _ _).trans (run_afterLines _ _), by decide +kernel⟩

/-! ### Sticky bytes -/

theorem handle_join {isup : ISupport} {ourNick : Bytes} {roster : Roster}
    (join : line.command = lit "JOIN") :
    roster.handle limits isup ourNick line =
      memberJoin limits isup roster line (senderOf line) (isUs isup ourNick (senderOf line)) := by
  have other {name : String} (different : lit "JOIN" ≠ lit name) : ¬line.command = lit name :=
    fun same => different (join.symm.trans same)
  unfold Roster.handle
  rw [if_neg (other (by decide)), if_neg (other (by decide)), if_neg (other (by decide)),
    if_neg (other (by decide)), if_neg (other (by decide)), if_pos join]

def Covered (limits : Limits) (connection : Connection) (line : IrcMessage) : Prop :=
  (line.command = lit "JOIN" → JoinCovered connection.isup connection.roster line) ∧
    (line.command = lit "MODE" → GrantsRefused limits connection.isup connection.roster line)

/-- A line that meets the condition adds nothing to a roster over its bytes. A live line that is no
MODE adds nothing only when it meets it. -/
theorem byte_ceiling_sticky (reached : Reachable limits nick connection)
    (full : (limits.maxRosterBytes : Int) ≤ connection.roster.totalBytes) {playback : Bool}
    {line : IrcMessage} (processed : connection.processLine limits playback line = some next) :
    (Covered limits connection line → next.roster.totalBytes ≤ connection.roster.totalBytes) ∧
      (playback = false → line.command ≠ lit "MODE" →
        next.roster.totalBytes ≤ connection.roster.totalBytes →
        Covered limits connection line) := by
  have exact_ := exact_of_reachable reached
  have full' : overBytes limits connection.roster = true := decide_eq_true full
  obtain ⟨updated, outcome⟩ := processLine_eq_some processed
  by_cases join : line.command = lit "JOIN"
  · have covered_iff : Covered limits connection line ↔
        JoinCovered connection.isup connection.roster line := by
      refine ⟨fun covered => covered.1 join, fun covered => ⟨fun _ => covered, fun mode => ?_⟩⟩
      exact absurd (join.symm.trans mode) (by decide)
    rw [ISupport.handle_of_command_ne (by rw [join]; decide)] at updated
    rw [covered_iff]
    rcases outcome with ⟨replayed, kept⟩ | ⟨live, _, handled⟩
    · rw [kept, replayed]
      exact ⟨fun _ => le_rfl, nofun⟩
    · rw [handled, updated, handle_join join, totalBytes_memberJoin_le_iff _ full']
      exact ⟨id, fun _ _ => id⟩
  · constructor
    · rintro ⟨-, refused⟩
      refine (processLine_moves False True processed nofun fun _ => ⟨full', join, fun mode => ?_⟩)
        |>.totalBytes_le exact_
      rw [updated, ISupport.handle_of_command_ne (by rw [mode]; decide)]
      exact refused mode
    · intro _ notMode _
      exact ⟨fun isJoin => absurd isJoin join, fun mode => absurd mode notMode⟩

def fewBytes : Limits := { maxRosterBytes := 315 }

def adaQuits : IrcMessage := lineFrom { name := lit "ada" } "QUIT" []

theorem byte_ceiling_sticky_adaQuits :
    (fewBytes.maxRosterBytes : Int) ≤ (namesInFlight fewBytes).roster.totalBytes ∧
      (afterLines fewBytes (namesInFlight fewBytes) [adaQuits]).roster.totalBytes ≤
        (namesInFlight fewBytes).roster.totalBytes := by
  have full : (fewBytes.maxRosterBytes : Int) ≤ (namesInFlight fewBytes).roster.totalBytes := by
    decide +kernel
  have processed : (namesInFlight fewBytes).processLine fewBytes false adaQuits =
      some (afterLines fewBytes (namesInFlight fewBytes) [adaQuits]) := rfl
  exact ⟨full, (byte_ceiling_sticky (run_afterLines _ _) full processed).1
    ⟨fun join => absurd join (by decide), fun mode => absurd mode (by decide)⟩⟩

/-- Our own JOIN, repeated while a burst that told less about us is in flight, grows the pending
entry of a roster over its bytes. -/
theorem repeated_join_adds_bytes :
    Reachable fewBytes (lit "me") (namesInFlight fewBytes) ∧
      (fewBytes.maxRosterBytes : Int) ≤ (namesInFlight fewBytes).roster.totalBytes ∧
      (namesInFlight fewBytes).roster.totalBytes < (afterLines fewBytes (namesInFlight fewBytes)
          [lineFrom me "JOIN" ["#go"]]).roster.totalBytes :=
  ⟨run_afterLines _ _, by decide +kernel, by decide +kernel⟩

end Runs

end Ircthing.Irc
