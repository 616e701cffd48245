import CoreUtils.Library.PriorityBuffer
import CoreUtils.Reporter.AttemptResult

/-!
# The console messages that are kept

How the messages of a trace are collected, after `signalFiltering.ts`: there is room for
`CONSOLE_MESSAGES_CAP` of them, and once they are full a high-signal message displaces the first
low-signal one. The collected messages are a `PriorityBuffer`.
-/

namespace CoreUtils.Reporter

/-- How many messages are kept. -/
def CONSOLE_MESSAGES_CAP : ℕ := 50

/-- The types of the messages that displace others. -/
def HIGH_SIGNAL_CONSOLE_ENTRY_TYPES : List String := ["warning", "error", "pageerror"]

def isHighSignalConsoleEntry (entry : ConsoleEntry) : Bool :=
  HIGH_SIGNAL_CONSOLE_ENTRY_TYPES.contains entry.type

/-- Append a message, the messages afterwards. -/
def appendConsoleEntryWithPriority (consoleMessages : List ConsoleEntry)
    (consoleEntry : ConsoleEntry) : List ConsoleEntry :=
  if consoleMessages.length < CONSOLE_MESSAGES_CAP then consoleMessages ++ [consoleEntry]
  else if !isHighSignalConsoleEntry consoleEntry then consoleMessages
  else
    match consoleMessages.findIdx? fun entry ↦ !isHighSignalConsoleEntry entry with
    | none => consoleMessages
    -- `splice(firstLowSignalIndex, 1)`, then `push`
    | some firstLowSignalIndex =>
        consoleMessages.eraseIdx firstLowSignalIndex ++ [consoleEntry]

/-- The messages after a list of them was fed, one by one. -/
def collectConsoleEntries (entries : List ConsoleEntry) : List ConsoleEntry :=
  entries.foldl appendConsoleEntryWithPriority []

/-- Appending a message is a push into a bounded buffer. -/
theorem appendConsoleEntryWithPriority_eq_push :
    appendConsoleEntryWithPriority =
      PriorityBuffer.push CONSOLE_MESSAGES_CAP isHighSignalConsoleEntry := by
  funext consoleMessages consoleEntry
  unfold appendConsoleEntryWithPriority PriorityBuffer.push
  cases isHighSignalConsoleEntry consoleEntry <;> rfl

/-- What is kept of the messages fed: as many as there is room for, in the order they came, the
first high-signal ones of all, and of the low-signal ones among the first `CONSOLE_MESSAGES_CAP`
messages the most recent ones that fit besides. -/
theorem collectConsoleEntries_retains (entries : List ConsoleEntry) :
    let high := entries.filter isHighSignalConsoleEntry
    let kept := collectConsoleEntries entries
    kept.length = min 50 entries.length ∧
      kept.Sublist entries ∧
      kept.filter isHighSignalConsoleEntry = high.take (min 50 high.length) ∧
      kept.filter (fun entry ↦ !isHighSignalConsoleEntry entry) =
        ((entries.take 50).filter fun entry ↦ !isHighSignalConsoleEntry entry).rtake
          (50 - min 50 high.length) := by
  have hretains :=
    PriorityBuffer.retains_foldl CONSOLE_MESSAGES_CAP isHighSignalConsoleEntry entries
  rw [← appendConsoleEntryWithPriority_eq_push] at hretains
  exact ⟨hretains.length, hretains.sublist, hretains.highs, hretains.lows⟩

end CoreUtils.Reporter
