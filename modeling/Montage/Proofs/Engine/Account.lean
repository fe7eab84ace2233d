import Mathlib.Data.List.DropRight
import Mathlib.Data.List.Infix
import Montage.Engine.Run
import Montage.Proofs.Bytes
import Montage.Proofs.Engine.Progress

/-! What becomes of the lines of a report. Every line is one of progress, a message or blank. A reader
that hears line after line and keeps the latest messages only ends with the states at the ends of the
blocks and with the last messages of the whole report. -/
namespace Montage

namespace Text

/-- A carriage return before a line feed belongs to the end of the line. -/
def withoutReturn (cs : List Char) : List Char :=
  if cs.getLast? = some '\r' then cs.dropLast else cs

/-- The lines of a text that was parted at its line feeds. What stands behind the last one is a line if
there is anything. -/
def linesOfPieces : List (List Char) → List String
  | [] => []
  | [last] => if last = [] then [] else [String.ofList last]
  | piece :: pieces => String.ofList (withoutReturn piece) :: linesOfPieces pieces

def lines (s : String) : List String := linesOfPieces (splitOn '\n' s.toList)

end Text

namespace Report

theorem withoutEnd_of_not_mem {bytes : Bytes} (free : 10 ∉ bytes) : withoutEnd bytes = bytes := by
  rw [withoutEnd]
  split
  · rename_i whole
    exact absurd (List.mem_reverse.1 (whole ▸ List.mem_cons_self)) free
  · rename_i whole
    exact absurd (List.mem_reverse.1 (whole ▸ List.mem_cons_self)) free
  · rfl

theorem withoutEnd_feed {bytes : Bytes} (h : bytes.getLast? ≠ some 13) :
    withoutEnd (bytes ++ [10]) = bytes := by
  rw [withoutEnd, List.reverse_append, List.reverse_singleton, List.singleton_append]
  split
  · rename_i whole
    rw [← List.head?_reverse, (List.cons.inj whole).2] at h
    exact absurd rfl h
  · rename_i whole
    rw [← (List.cons.inj whole).2, List.reverse_reverse]
  · rename_i other
    exact absurd rfl (other bytes.reverse)

theorem withoutEnd_return (bytes : Bytes) : withoutEnd (bytes ++ [13, 10]) = bytes := by
  rw [withoutEnd, List.reverse_append]
  exact List.reverse_reverse bytes

theorem withoutEnd_ofText (cs : List Char) : withoutEnd (Bytes.ofText (String.ofList cs) ++ [10]) =
    Bytes.ofText (String.ofList (Text.withoutReturn cs)) := by
  rw [Text.withoutReturn]
  split
  · rename_i last
    have parts := List.dropLast_append_getLast? '\r' last
    conv_lhs => rw [← parts, Bytes.ofText_ofList_append, List.append_assoc]
    exact withoutEnd_return _
  · rename_i other
    exact withoutEnd_feed (mt Bytes.getLast?_eq_return other)

theorem textLines_cons_ofText {line : Bytes} {s : String} (h : withoutEnd line = Bytes.ofText s)
    (rest : List Bytes) : textLines (line :: rest) = s :: textLines rest := by
  rw [textLines, h, Bytes.text?_ofText]

theorem lines_ofText_intercalate {pieces : List (List Char)}
    (free : ∀ piece ∈ pieces, '\n' ∉ piece) :
    lines (Bytes.ofText (String.ofList (['\n'].intercalate pieces))) = Text.linesOfPieces pieces := by
  fun_induction Text.linesOfPieces pieces with
  | case1 => rfl
  | case2 => rfl
  | case3 last other =>
    have unfed := Bytes.feed_not_mem_ofText (free last List.mem_cons_self)
    rw [List.intercalate_singleton, lines, Bytes.lines_of_not_mem unfed (Bytes.ofText_ne_nil other),
      textLines_cons_ofText (withoutEnd_of_not_mem unfed), textLines]
  | case4 piece pieces more ih =>
    obtain ⟨next, rest, rfl⟩ := List.exists_cons_of_ne_nil more
    have unfed := Bytes.feed_not_mem_ofText (free piece List.mem_cons_self)
    have feed : Bytes.ofText (String.ofList ['\n']) = [10] := by decide
    rw [List.intercalate_cons_cons, Bytes.ofText_ofList_append, Bytes.ofText_ofList_append, feed,
      List.append_assoc, List.singleton_append, lines, Bytes.lines_append unfed,
      textLines_cons_ofText (withoutEnd_ofText piece), ← lines,
      ih fun piece later => free piece (List.mem_cons_of_mem _ later)]

theorem lines_ofText (s : String) : lines (Bytes.ofText s) = Text.lines s := by
  have whole := Text.intercalate_splitOn '\n' s.toList
  rw [Text.lines, ← lines_ofText_intercalate fun _ => Text.not_mem_of_mem_splitOn, whole,
    String.ofList_toList]

def isMessage (line : String) : Bool := !Progress.isLine line && Text.trim line.toList ≠ []

def blocks (lines : List String) : List (List String) :=
  lines.inits.filter fun before => before.getLast?.any Progress.endsBlock

def states (lines : List String) : List Progress :=
  (blocks lines).map fun before => before.foldl Progress.read {}

theorem blocks_append (lines : List String) (line : String) : blocks (lines ++ [line]) =
    blocks lines ++ if Progress.endsBlock line then [lines ++ [line]] else [] := by
  rw [blocks, List.inits_append, List.filter_append]
  cases ends : Progress.endsBlock line <;> simp [blocks, ends]

theorem length_blocks (lines : List String) :
    (blocks lines).length = lines.countP Progress.endsBlock := by
  induction lines using List.reverseRecOn with
  | nil => rfl
  | append_singleton lines line ih =>
    rw [blocks_append, List.length_append, ih, List.countP_append, List.countP_singleton]
    split <;> rfl

theorem states_append (lines : List String) (line : String) : states (lines ++ [line]) =
    states lines ++ ((lines.foldl Progress.read {}).snapshot? line).toList := by
  rw [states, blocks_append, List.map_append, Progress.snapshot?]
  cases Progress.endsBlock line <;> simp [states]

theorem keep_rtake (messages : List String) (line : String) :
    keep (messages.rtake kept) line = (messages ++ [line]).rtake kept := by
  rw [kept, List.rtake_concat_succ, keep, kept]
  congr 1
  rw [List.rtake, List.rtake, List.length_drop, List.tail_drop]
  split
  · rename_i full
    congr 1
    omega
  · rename_i room
    congr 1
    omega

namespace Account

structure Tells (a : Account) (lines : List String) : Prop where
  progress : a.progress = (lines.filter Progress.isLine).foldl Progress.read {}
  snapshots : a.snapshots = states (lines.filter Progress.isLine)
  tail : a.tail = (lines.filter isMessage).rtake kept

theorem Tells.hear {a : Account} {lines : List String} (h : a.Tells lines) (line : String) :
    (a.hear line).Tells (lines ++ [line]) := by
  rw [Account.hear]
  split
  · rename_i progress
    constructor
    · simp [progress, h.progress]
    · simp [progress, states_append, h.progress, h.snapshots]
    · simp [progress, isMessage, h.tail]
  · rename_i other
    split
    · rename_i visible
      constructor
      · simp [other, h.progress]
      · simp [other, h.snapshots]
      · have message : isMessage line = true := by simp [isMessage, other, visible]
        simp [message, h.tail, keep_rtake]
    · rename_i blank
      constructor
      · simp [other, h.progress]
      · simp [other, h.snapshots]
      · have message : isMessage line = false := by simpa [isMessage] using fun _ => blank
        simp [message, h.tail]

theorem tells_ofLines (lines : List String) : (ofLines lines).Tells lines := by
  induction lines using List.reverseRecOn with
  | nil => exact ⟨rfl, rfl, rfl⟩
  | append_singleton lines line ih =>
    rw [ofLines, List.foldl_append]
    exact ih.hear line

end Account

theorem ne_empty_of_isMessage {line : String} (h : isMessage line = true) : line ≠ "" := by
  rintro rfl
  exact absurd h (by decide)

theorem intercalate_eq_empty_iff {lines : List String} (visible : ∀ line ∈ lines, line ≠ "") :
    "\n".intercalate lines = "" ↔ lines = [] := by
  rcases lines with _ | ⟨first, _ | ⟨second, rest⟩⟩
  · simp
  · simpa using visible first List.mem_cons_self
  · simp [String.intercalate_cons_cons]

theorem snapshots_eq (lines : List String) :
    snapshots lines = states (lines.filter Progress.isLine) :=
  (Account.tells_ofLines lines).snapshots

theorem tail?_eq (lines : List String) : tail? lines = if lines.filter isMessage = [] then none
    else some ("\n".intercalate ((lines.filter isMessage).rtake kept)) := by
  have visible : ∀ line ∈ (lines.filter isMessage).rtake kept, line ≠ "" := fun line among =>
    ne_empty_of_isMessage (List.mem_filter.1 (List.mem_of_mem_drop among)).2
  have none_kept : (lines.filter isMessage).rtake kept = [] ↔ lines.filter isMessage = [] := by
    rw [List.rtake, List.drop_eq_nil_iff, ← List.length_eq_zero_iff, kept]
    omega
  rw [tail?, (Account.tells_ofLines lines).tail]
  simp only [intercalate_eq_empty_iff visible, none_kept]

/-- A line of progress is nothing to the messages. -/
theorem tail?_remove {before after : List String} {line : String}
    (progress : Progress.isLine line = true) :
    tail? (before ++ after) = tail? (before ++ line :: after) := by
  have silent : isMessage line = false := by simp [isMessage, progress]
  simp only [tail?_eq, List.filter_append, List.filter_cons_of_neg (Bool.eq_false_iff.1 silent)]

/-- Any other line is nothing to the progress. -/
theorem snapshots_remove {before after : List String} {line : String}
    (other : Progress.isLine line = false) :
    snapshots (before ++ after) = snapshots (before ++ line :: after) := by
  simp only [snapshots_eq, List.filter_append, List.filter_cons_of_neg (Bool.eq_false_iff.1 other)]

end Report

theorem Command.run_of_launch {c : Command} {isCancelled : Bool} {course : Course} {dir : Location}
    {t : FileTree} (started : (c.run isCancelled (some course) dir t).launch.isSome = true) :
    (c.run isCancelled (some course) dir t).snapshots =
      Report.snapshots (Report.lines course.report) ∧
    (c.run isCancelled (some course) dir t).result =
      Run.resultOf (Report.lines course.report) course.completion := by
  cases isCancelled with
  | true => cases started
  | false =>
    cases refused : Run.refusal? c.runArguments with
    | some cause => simp [run, refused] at started
    | none => simp [run, refused]

theorem failed_runs_account_for_every_line (c : Command) (isCancelled : Bool) (text : String)
    (work : FileTree → FileTree) (code : Option Int) (dir : Location) (t : FileTree)
    (started : (c.run isCancelled (some ⟨Bytes.ofText text, work, .exited code⟩) dir t).launch.isSome)
    (failed : code ≠ some 0) :
    let run := c.run isCancelled (some ⟨Bytes.ofText text, work, .exited code⟩) dir t
    let lines := Text.lines text
    let progress := lines.filter Progress.isLine
    let messages := lines.filter fun line => !Progress.isLine line && Text.trim line.toList ≠ []
    run.snapshots = (progress.inits.filter fun before => before.getLast?.any Progress.endsBlock).map
      (fun before => before.foldl Progress.read {}) ∧
    run.snapshots.length = progress.countP Progress.endsBlock ∧
    run.result = .error (.engineFailed "FFmpeg exited with non-zero status"
      (if messages = [] then none else some ("\n".intercalate (messages.rtake 20))) code) ∧
    (∀ before line after, lines = before ++ line :: after →
      (Progress.isLine line = true → Report.tail? (before ++ after) = Report.tail? lines) ∧
      (Progress.isLine line = false →
        Report.snapshots (before ++ after) = Report.snapshots lines)) ∧
    ∀ line, Progress.isLine line = true ↔ ∃ key value kept, line.toList = key ++ '=' :: value ∧
      key ≠ [] ∧ (∀ c ∈ key, Progress.isKeyChar c = true) ∧
      Progress.entry? line = some (String.ofList key, kept) := by
  obtain ⟨snapshots, result⟩ := Command.run_of_launch started
  rw [Report.lines_ofText] at snapshots result
  refine ⟨?_, ?_, ?_, ?_, ?_⟩
  · rw [snapshots, Report.snapshots_eq]
    rfl
  · rw [snapshots, Report.snapshots_eq, Report.states, List.length_map, Report.length_blocks]
  · rw [result, Run.resultOf, if_neg failed, Report.tail?_eq]
    rfl
  · rintro before line after parts
    rw [parts]
    exact ⟨Report.tail?_remove, Report.snapshots_remove⟩
  · intro line
    rw [Progress.isLine_iff]
    constructor
    · rintro ⟨key, value, whole, nonempty, letters⟩
      obtain ⟨kept, entry⟩ := Progress.exists_entry?_of_key whole nonempty letters
      exact ⟨key, value, kept, whole, nonempty, letters, entry⟩
    · rintro ⟨key, value, kept, whole, nonempty, letters, -⟩
      exact ⟨key, value, whole, nonempty, letters⟩

/-- A report of two blocks around a blank line and one message more than are kept. -/
def Report.lengthy : String := "frame=1\nprogress=continue\r\n \n" ++
  "\n".intercalate ((List.range 21).map Numeral.text) ++ "\nprogress=end"

theorem lengthy_report_loses_its_first_message :
    let run := (Command.ofPaths "clip.mp4" "clip1.mp4").run false
      (some ⟨Bytes.ofText Report.lengthy, id, .exited (some 1)⟩) [] {}
    run.launch.isSome = true ∧ run.snapshots.length = 2 ∧
      run.result = .error (.engineFailed "FFmpeg exited with non-zero status"
        (some ("\n".intercalate ((List.range' 1 20).map Numeral.text)))
        (some 1)) := by
  intro run
  have started : run.launch.isSome = true := by decide +kernel
  obtain ⟨-, length, result, -⟩ := failed_runs_account_for_every_line _ _ _ _ _ _ _ started (by decide)
  refine ⟨started, length.trans ?_, result.trans ?_⟩
  · decide +kernel
  · decide +kernel

end Montage
