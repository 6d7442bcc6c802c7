import ExaProxy.Data.Ring
import ExaProxy.Data.Str
import ExaProxy.Data.Transition

namespace ExaProxy.Util.Log

open Data

/-! The log: loggers that put messages into a store, and a writer that takes them out of
it from time to time.  `logging` is the standard library's. -/

variable {τ : Type}

def DEBUG : Nat := 10
def INFO : Nat := 20
def WARNING : Nat := 30
def ERROR : Nat := 40
def CRITICAL : Nat := 50

structure Message (τ : Type) where
  name : Str
  level : Nat
  timestamp : τ
  text : Str
deriving DecidableEq, Repr

structure Logger where
  name : Str
  active : Bool
  loglevel : Nat := DEBUG
deriving DecidableEq, Repr

/-- The history and the store that all loggers of a process share. -/
structure Store (τ : Type) where
  size : Nat := 1000
  history : List (Message τ) := []
  queue : List (Message τ) := []

namespace Logger

def accepts (logger : Logger) (level : Nat) : Bool := logger.active && level ≥ logger.loglevel

/-- `log`: the message is recorded, and put into the store when the logger is active. -/
def log (logger : Logger) (text : Str) (level : Nat) (now : τ) (store : Store τ) : Store τ :=
  let message : Message τ := ⟨logger.name, level, now, text⟩
  { store with
    history := Ring.push store.size store.history message
    queue := if logger.accepts level then store.queue ++ [message] else store.queue }

end Logger

/-- `SysLogWriter`.  `syslog` is the level of its `logging.Logger`, which `__init__` alone
sets, and which ignores messages of lower levels. -/
structure SysLogWriter where
  identifier : Str
  pid : Nat
  active : Bool
  level : Nat
  backup : Option (Bool × Nat) := none
  syslog : Nat := level
deriving DecidableEq, Repr

namespace SysLogWriter

/-- `'%-*s'` -/
def ljust (width : Nat) (text : Str) : Str := text ++ List.replicate (width - text.length) 32

/-- `'%s %-6d %-13s %s'` -/
def formatMessage (writer : SysLogWriter) (message : Message τ) : Str :=
  writer.identifier ++ [32] ++ ljust 6 (Str.decimal writer.pid) ++ [32] ++ ljust 13 message.name ++ [32] ++
    message.text

def toggleDebug (writer : SysLogWriter) : SysLogWriter :=
  match writer.backup with
  | some (active, level) => { writer with backup := none, active, level }
  | none => { writer with backup := some (writer.active, writer.level), active := true, level := DEBUG }

def setIdentifier (identifier : Str) (writer : SysLogWriter) : SysLogWriter := { writer with identifier }

/-- Whether `_syslog.log` is called for a message and does not ignore it. -/
def passes (writer : SysLogWriter) (message : Message τ) : Bool :=
  writer.active && message.level ≥ writer.level && message.level ≥ writer.syslog

/-- What a call of `writeMessages` writes of the messages that it has read. -/
def writeMessages (writer : SysLogWriter) (messages : List (Message τ)) : List (Message τ × Str) :=
  (messages.filter writer.passes).map fun message => (message, writer.formatMessage message)

end SysLogWriter

/-- `logged`, `accepted` and `taken` are all messages that were logged, put into the store
and read from it, and `output` those that were written, with the text they were written as. -/
structure State (τ : Type) where
  store : Store τ
  writer : SysLogWriter
  logged : List (Message τ) := []
  accepted : List (Message τ) := []
  taken : List (Message τ) := []
  output : List (Message τ × Str) := []

inductive Event (τ : Type) where
  | log (logger : Logger) (text : Str) (level : Nat) (now : τ)
  | writeMessages
  | toggleDebug
  | setIdentifier (identifier : Str)

def next (state : State τ) : Event τ → State τ
  | .log logger text level now =>
      let message : Message τ := ⟨logger.name, level, now, text⟩
      { state with
        store := logger.log text level now state.store
        logged := state.logged ++ [message]
        accepted := if logger.accepts level then state.accepted ++ [message] else state.accepted }
  | .writeMessages =>
      { state with
        store := { state.store with queue := [] }
        taken := state.taken ++ state.store.queue
        output := state.output ++ state.writer.writeMessages state.store.queue }
  | .toggleDebug => { state with writer := state.writer.toggleDebug }
  | .setIdentifier identifier => { state with writer := state.writer.setIdentifier identifier }

def Step (before after : State τ) : Prop := ∃ event, after = next before event

/-- A writer that was told to log from `level` on, or not to log. -/
def Start (enable : Bool) (level : Nat) (state : State τ) : Prop :=
  ∃ identifier pid, state = { store := {}, writer := { identifier, pid, active := enable, level } }

/-- The writer has its own settings, or those for debugging and its own in reserve. -/
def Settings (enable : Bool) (level : Nat) (writer : SysLogWriter) : Prop :=
  writer.syslog = level ∧
    (writer.backup = none ∧ writer.active = enable ∧ writer.level = level ∨
      writer.backup = some (enable, level) ∧ writer.active = true ∧ writer.level = DEBUG)

structure Sound (enable : Bool) (level : Nat) (state : State τ) : Prop where
  size : state.store.size = 1000
  settings : Settings enable level state.writer
  history : state.store.history = state.logged.rtake state.store.size
  accepted : state.accepted = state.taken ++ state.store.queue
  logged : state.accepted.Sublist state.logged
  passed : (state.output.map Prod.fst).Sublist (state.taken.filter (level ≤ ·.level))
  whole : enable = true → DEBUG ≤ level → state.output.map Prod.fst = state.taken.filter (level ≤ ·.level)

variable {enable : Bool} {level : Nat} {state before after : State τ} {writer : SysLogWriter}

theorem Settings.toggleDebug (settings : Settings enable level writer) : Settings enable level writer.toggleDebug := by
  obtain ⟨syslog, ⟨backup, active, own⟩ | ⟨backup, active, own⟩⟩ := settings
  · exact ⟨by simp [SysLogWriter.toggleDebug, backup, syslog],
      .inr (by simp [SysLogWriter.toggleDebug, backup, active, own])⟩
  · exact ⟨by simp [SysLogWriter.toggleDebug, backup, syslog],
      .inl (by simp [SysLogWriter.toggleDebug, backup])⟩

theorem Settings.passed (settings : Settings enable level writer) (messages : List (Message τ)) :
    ((writer.writeMessages messages).map Prod.fst).Sublist (messages.filter (level ≤ ·.level)) := by
  simp only [SysLogWriter.writeMessages, List.map_map, Function.comp_def, List.map_id']
  apply List.monotone_filter_right
  intro message passes
  simp only [SysLogWriter.passes, settings.1, Bool.and_eq_true] at passes
  exact passes.2

theorem Settings.whole (settings : Settings true level writer) (lowest : DEBUG ≤ level)
    (messages : List (Message τ)) :
    (writer.writeMessages messages).map Prod.fst = messages.filter (level ≤ ·.level) := by
  simp only [SysLogWriter.writeMessages, List.map_map, Function.comp_def, List.map_id']
  apply List.filter_congr
  intro message _
  obtain ⟨syslog, ⟨_, active, own⟩ | ⟨_, active, own⟩⟩ := settings
  · simp [SysLogWriter.passes, syslog, active, own]
  · simp only [SysLogWriter.passes, syslog, active, own, Bool.true_and, ge_iff_le]
    rw [Bool.and_eq_right_iff_imp]
    intro enough
    rw [decide_eq_true_eq] at enough ⊢
    exact lowest.trans enough

theorem Sound.next (sound : Sound enable level state) (event : Event τ) : Sound enable level (next state event) := by
  obtain ⟨size, settings, history, accepted, logged, passed, whole⟩ := sound
  cases event with
  | log logger text given now =>
      refine ⟨size, settings, ?_, ?_, ?_, passed, whole⟩
      · simp only [Log.next, Logger.log, history]
        exact Ring.push_rtake _ _ _
      · simp only [Log.next, Logger.log]
        split
        · rw [accepted, List.append_assoc]
        · exact accepted
      · simp only [Log.next]
        split
        · exact logged.append (List.Sublist.refl _)
        · exact logged.trans (List.sublist_append_left _ _)
  | writeMessages =>
      refine ⟨size, settings, history, ?_, logged, ?_, fun active lowest => ?_⟩
      · simp only [Log.next, List.append_nil]
        exact accepted
      · simp only [Log.next, List.map_append, List.filter_append]
        exact passed.append (settings.passed _)
      · subst active
        simp only [Log.next, List.map_append, List.filter_append, settings.whole lowest, whole rfl lowest]
  | toggleDebug => exact ⟨size, settings.toggleDebug, history, accepted, logged, passed, whole⟩
  | setIdentifier identifier => exact ⟨size, settings, history, accepted, logged, passed, whole⟩

theorem Start.sound (start : Start enable level state) : Sound enable level state := by
  obtain ⟨identifier, pid, rfl⟩ := start
  exact ⟨rfl, ⟨rfl, .inl ⟨rfl, rfl, rfl⟩⟩, (List.rtake_nil 1000).symm, rfl, .refl _, .refl _, fun _ _ => rfl⟩

theorem reachable_sound (reached : Reachable (Start enable level) Step state) : Sound enable level state :=
  reached.invariant (Sound enable level) (fun _ start => start.sound) fun _ _ _ sound stepped => by
    obtain ⟨event, rfl⟩ := stepped
    exact sound.next event

theorem reachable_foldl (reached : Reachable (Start enable level) Step state) (events : List (Event τ)) :
    Reachable (Start enable level) Step (events.foldl next state) := by
  induction events generalizing state with
  | nil => exact reached
  | cons event rest ih => exact ih (reached.next ⟨event, rfl⟩)

/-- In every interleaving of loggers and writer each message is read from the store once and
in order.  What is written are those of the configured level or a higher one, if logging is
enabled all of them: debugging, whenever it is switched on and off, adds none. -/
theorem messages_written (reached : Reachable (Start enable level) Step state) :
    state.accepted = state.taken ++ state.store.queue ∧
    state.accepted.Sublist state.logged ∧
    (state.output.map Prod.fst).Sublist (state.taken.filter (level ≤ ·.level)) ∧
    (enable = true → DEBUG ≤ level → state.output.map Prod.fst = state.taken.filter (level ≤ ·.level)) ∧
    state.store.history = state.logged.rtake 1000 := by
  have sound := reachable_sound reached
  refine ⟨sound.accepted, sound.logged, sound.passed, sound.whole, ?_⟩
  rw [sound.history, sound.size]

/-- A writer for errors, before it was told to debug. -/
def quiet : State Unit :=
  { store := {}, writer := { identifier := ascii "ExaProxy", pid := 7, active := true, level := ERROR } }

def clientLogger : Logger := { name := ascii "client", active := true }

/-- What the loggers and the writer do while debugging is switched on. -/
def debugging : List (Event Unit) :=
  [.log clientLogger (ascii "lost") ERROR (), .toggleDebug, .log clientLogger (ascii "seen") DEBUG (), .writeMessages]

theorem messages_written_debugged : (debugging.foldl next quiet).accepted.length = 2 ∧
    (debugging.foldl next quiet).output.map Prod.fst =
      (debugging.foldl next quiet).taken.filter (ERROR ≤ ·.level) := by
  have start : Reachable (Start true ERROR) Step quiet := .start ⟨_, _, rfl⟩
  have reached := reachable_foldl start debugging
  exact ⟨by decide, (messages_written reached).2.2.2.1 rfl (by decide)⟩

end ExaProxy.Util.Log
