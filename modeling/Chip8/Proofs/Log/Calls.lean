import Chip8.Log.Logger
import Mathlib.Tactic.Common

/-!
# Calls of a logger

Every call of a logger asks for itself whether its label is enabled. Nothing else hangs on the
threshold: of what a call prints, a logger with a higher threshold selects just what it would have
printed itself (`Logger.select_log`, `Logger.select_logAll`).
-/

namespace Chip8.Log.Logger

variable {l l' : Logger} {label : String} {lines : List Line}

/-- The lines whose labels are enabled. -/
def select (l : Logger) (lines : List Line) : List Line :=
  lines.filter fun line => l.enabled line.label

lemma select_append (l : Logger) (lines lines' : List Line) :
    l.select (lines ++ lines') = l.select lines ++ l.select lines' :=
  List.filter_append lines lines'

/-- Of lines that have the same label, all are selected or none. -/
lemma select_eq_ite (h : ∀ line ∈ lines, line.label = label) :
    l.select lines = if l.enabled label then lines else [] := by
  split
  next he => exact List.filter_eq_self.mpr fun line hline => by rw [h line hline, he]
  next he => exact List.filter_eq_nil_iff.mpr fun line hline => by rwa [h line hline]

/-- Of a logger, only the threshold has a part in the choice of lines. -/
lemma select_congr (h : l'.threshold = l.threshold) : l'.select = l.select := by
  funext lines
  simp only [select, enabled, h]

/-! ### Single calls -/

lemma log_of_enabled (h : l.enabled label = true) (message : String) :
    l.log label message = [⟨label, message⟩] :=
  if_pos h

lemma logAll_of_enabled (h : l.enabled label = true) (messages : List String) :
    l.logAll label messages = messages.map (Line.mk label) := by
  have hlog : l.log label = fun message => [⟨label, message⟩] := funext (log_of_enabled h)
  rw [logAll, if_pos h, hlog, List.map_eq_flatMap]

/-- Whatever a call prints is the line of its message. -/
lemma eq_of_mem_log {line : Line} {message : String} (h : line ∈ l.log label message) :
    line = ⟨label, message⟩ := by
  unfold log at h
  split at h
  · exact List.mem_singleton.mp h
  · cases h

/-- Whatever a call with several messages prints is the line of one of them. -/
lemma exists_of_mem_logAll {line : Line} {messages : List String}
    (h : line ∈ l.logAll label messages) : ∃ message ∈ messages, line = ⟨label, message⟩ := by
  unfold logAll at h
  split at h
  · obtain ⟨message, hmessage, hline⟩ := List.mem_flatMap.mp h
    exact ⟨message, hmessage, eq_of_mem_log hline⟩
  · cases h

/-- On the lowest threshold every call prints its line. -/
lemma log_of_debug (h : l.threshold = .debug) (label message : String) :
    l.log label message = [⟨label, message⟩] := by
  refine log_of_enabled ?_ message
  rw [enabled, h]
  exact decide_eq_true (Nat.zero_le _)

/-! ### Thresholds -/

section Thresholds

variable (h : l.threshold.rank ≤ l'.threshold.rank)
include h

/-- A label that weighs enough for a higher threshold weighs enough for a lower one. -/
lemma enabled_of_le (he : l'.enabled label = true) : l.enabled label = true := by
  rw [enabled, decide_eq_true_eq] at he ⊢
  exact Nat.le_trans h he

lemma select_log (label message : String) :
    l'.select (l.log label message) = l'.log label message := by
  rw [select_eq_ite fun line hline => congrArg Line.label (eq_of_mem_log hline)]
  split
  next he => rw [log_of_enabled (enabled_of_le h he), log_of_enabled he]
  next he => exact (if_neg he).symm

/-- A call for several messages asks once more for each of them, but all have the same label. -/
lemma select_logAll (label : String) (messages : List String) :
    l'.select (l.logAll label messages) = l'.logAll label messages := by
  have hlabel : ∀ line ∈ l.logAll label messages, line.label = label := by
    intro line hline
    obtain ⟨message, -, rfl⟩ := exists_of_mem_logAll hline
    rfl
  rw [select_eq_ite hlabel]
  split
  next he => rw [logAll_of_enabled (enabled_of_le h he), logAll_of_enabled he]
  next he => exact (if_neg he).symm

end Thresholds

end Chip8.Log.Logger
