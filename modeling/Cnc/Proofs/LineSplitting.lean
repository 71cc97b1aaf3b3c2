import Mathlib.Data.List.DropRight
import Cnc.Proofs.SettingLines

/-!
# What a splitter gives of a stream

A splitter keeps the text after the last line feed, and each chunk may
complete lines of which it has seen the beginning before. All in all it gives
the lines of the whole text, each of them once: the text that it was fed since
it was last cleared falls into lines and a rest, the frames since then are
those of the lines, and the rest is what it keeps (`FrameSplitter.splits`).

No frame holds a line feed, and none begins or ends with a blank, so that a
frame says nothing about how its line was indented or terminated.
-/

namespace Cnc

open Text Utf8

/-! ## Neat texts -/

/-- **A text as it stands in a frame**: one line, with no blank at either end. -/
structure Text.Neat (text : List Char) : Prop where
  first : ∀ c ∈ text.head?, isBlank c = false
  last : ∀ c ∈ text.getLast?, isBlank c = false
  oneLine : '\n' ∉ text

theorem Text.neat_trim {text : List Char} (oneLine : '\n' ∉ text) : Neat (trim text) where
  first _ := notBlank_of_head_trim
  last _ := notBlank_of_getLast_trimEnd
  oneLine inside := oneLine (mem_of_mem_trim inside)

/-- The number of a setting is neat. -/
theorem Text.neat_of_digits {text : List Char} (digits : ∀ c ∈ text, isDigit c = true) :
    Neat text := by
  have other {c : Char} (member : c ∈ text) : isBlank c = false := by
    by_contra blank
    have digit := digits c member
    rw [isDigit_of_isBlank (by simpa using blank)] at digit
    exact absurd digit (by simp)
  exact ⟨fun c first => other (List.mem_of_head? first),
    fun c last => other (List.mem_of_getLast? last),
    fun inside => absurd (other inside) (by decide)⟩

/-- **The texts of a frame are neat**, and none but the value of a setting is empty. -/
def Frame.Neat : Frame → Prop
  | .status raw => raw ≠ "" ∧ Text.Neat raw.toList
  | .setting id value => id ≠ "" ∧ Text.Neat id.toList ∧ Text.Neat value.toList
  | .log line => line ≠ "" ∧ Text.Neat line.toList

/-- **A neat line makes a neat frame.** -/
theorem Frame.neat_classify {line : List Char} (some_ : line ≠ []) (neat : Text.Neat line) :
    (classify line).Neat := by
  have real {text : List Char} (some_ : text ≠ []) : String.ofList text ≠ "" := fun empty =>
    some_ (by rw [← String.toList_ofList (l := text), empty]; rfl)
  unfold classify
  split
  · exact ⟨real some_, by rwa [String.toList_ofList]⟩
  · cases found : setting? line with
    | none => exact ⟨real some_, by rwa [String.toList_ofList]⟩
    | some r =>
      obtain ⟨id, value⟩ := r
      obtain ⟨gap, rest, rfl, -, rfl, number, digits⟩ := FrameSplitter.setting?_parts found
      have oneLine : '\n' ∉ rest := fun inside => neat.oneLine (by simp [inside])
      refine ⟨real number, ?_, ?_⟩
      · rw [String.toList_ofList]
        exact neat_of_digits digits
      · rw [String.toList_ofList]
        exact neat_trim oneLine

namespace FrameSplitter

/-! ## Steps -/

/-- What can be done with a splitter. -/
inductive Step where
  /-- It takes the next chunk. -/
  | feed (chunk : List UInt8)
  /-- It forgets the text that it keeps. -/
  | clear
deriving DecidableEq

/-- The text that a step adds. -/
def Step.text : Step → List Char
  | .feed chunk => decodeLossy chunk
  | .clear => []

/-- Takes a step, and gives the lines that it completes. -/
def step (s : FrameSplitter) : Step → FrameSplitter × List Frame
  | .feed chunk => s.feed chunk
  | .clear => (s.clear, [])

/-- **Takes steps in order**, and gives the lines that each of them completes. -/
def run (s : FrameSplitter) : List Step → FrameSplitter × List (List Frame)
  | [] => (s, [])
  | st :: rest => (((s.step st).1.run rest).1, (s.step st).2 :: ((s.step st).1.run rest).2)

/-- The steps since the splitter was last cleared. -/
def sinceClear (steps : List Step) : List Step := steps.rtakeWhile (· ≠ .clear)

/-- **The text since the last clear.** -/
def recentText (steps : List Step) : List Char := (sinceClear steps).flatMap Step.text

/-- **The frames since the last clear**: those that the last steps give. -/
def recentFrames (s : FrameSplitter) (steps : List Step) : List Frame :=
  ((s.run steps).2.rtake (sinceClear steps).length).flatten

variable {s : FrameSplitter} {steps : List Step} {st : Step} {chunk : List UInt8}

theorem run_concat (s : FrameSplitter) (steps : List Step) (st : Step) :
    s.run (steps ++ [st]) = (((s.run steps).1.step st).1,
      (s.run steps).2 ++ [((s.run steps).1.step st).2]) := by
  induction steps generalizing s with
  | nil => rfl
  | cons first rest ih =>
    rw [List.cons_append, run, ih]
    rfl

theorem sinceClear_feed : sinceClear (steps ++ [.feed chunk]) = sinceClear steps ++ [.feed chunk] :=
  List.rtakeWhile_concat_pos _ _ _ (by simp)

theorem sinceClear_clear : sinceClear (steps ++ [.clear]) = [] :=
  List.rtakeWhile_concat_neg _ _ _ (by simp)

theorem recentFrames_feed : s.recentFrames (steps ++ [.feed chunk])
    = s.recentFrames steps ++ ((s.run steps).1.feed chunk).2 := by
  rw [recentFrames, sinceClear_feed, run_concat, List.length_append, List.length_singleton,
    List.rtake_concat_succ, List.flatten_append, List.flatten_singleton]
  rfl

/-! ## One chunk -/

/-- **What a chunk completes**: the kept text and the chunk fall into lines and a rest. -/
theorem feed_pieces (s : FrameSplitter) (chunk : List UInt8) :
    ∃ lines, Pieces '\n' (s.pending ++ decodeLossy chunk) (lines ++ [(s.feed chunk).1.pending]) ∧
      (s.feed chunk).2 = ((lines.map trim).filter (· ≠ [])).map Frame.classify := by
  obtain ⟨lines, rest, pieces⟩ : ∃ lines rest,
      (s.pending ++ decodeLossy chunk).splitOn '\n' = lines ++ [rest] :=
    ⟨_, _, (List.dropLast_append_getLast (List.splitOn_ne_nil '\n' _)).symm⟩
  refine ⟨lines, pieces_iff.mpr ?_, ?_⟩
  · simp [feed, pieces]
  · simp [feed, pieces]

/-- **What a chunk gives is neat.** -/
theorem neat_feed {f : Frame} (given : f ∈ (s.feed chunk).2) : f.Neat := by
  obtain ⟨lines, pieces, frames⟩ := feed_pieces s chunk
  rw [frames] at given
  obtain ⟨line, kept, rfl⟩ := List.mem_map.mp given
  obtain ⟨trimmed, some_⟩ := List.mem_filter.mp kept
  obtain ⟨whole, member, rfl⟩ := List.mem_map.mp trimmed
  exact Frame.neat_classify (by simpa using some_)
    (neat_trim (pieces.clean whole (List.mem_append_left _ member)))

/-! ## The whole stream -/

/-- The frames since the last clear are those of the lines since then. -/
theorem splits_recent (steps : List Step) :
    ∃ lines, Pieces '\n' (recentText steps) (lines ++ [(empty.run steps).1.pending]) ∧
      empty.recentFrames steps
        = ((lines.map trim).filter (· ≠ [])).map Frame.classify := by
  induction steps using List.reverseRecOn with
  | nil => exact ⟨[], pieces_iff.mpr rfl, rfl⟩
  | append_singleton steps st ih =>
    cases st with
    | clear =>
      refine ⟨[], ?_, ?_⟩
      · rw [recentText, sinceClear_clear, run_concat]
        exact pieces_iff.mpr rfl
      · rw [recentFrames, sinceClear_clear]
        simp [List.rtake]
    | feed chunk =>
      obtain ⟨lines, pieces, frames⟩ := ih
      obtain ⟨lines', pieces', frames'⟩ := feed_pieces (empty.run steps).1 chunk
      refine ⟨lines ++ lines', pieces_iff.mpr ?_, ?_⟩
      · rw [recentText, sinceClear_feed, List.flatMap_append, List.flatMap_singleton, run_concat,
          List.append_assoc]
        exact (splitOn_append (pieces_iff.mp pieces) _).trans
          (congrArg (lines ++ ·) (pieces_iff.mp pieces'))
      · rw [recentFrames_feed, frames, frames', List.map_append, List.filter_append,
          List.map_append]

theorem neat_run {f : Frame} (given : f ∈ (s.run steps).2.flatten) : f.Neat := by
  induction steps generalizing s with
  | nil => exact absurd given (by simp [run])
  | cons st rest ih =>
    rw [run, List.flatten_cons, List.mem_append] at given
    rcases given with first | later
    · cases st with
      | feed chunk => exact neat_feed first
      | clear => exact absurd first (by simp [step])
    · exact ih later

/-- **A stream is cut into its lines.** In whatever chunks the text comes, the frames since the last
clear are those of the trimmed lines of the text since then, without the empty ones, in order and
each once; what is kept is the text behind the last line feed. Every frame that is ever given is
neat. -/
theorem splits (steps : List Step) :
    (∃ lines, Pieces '\n' (recentText steps) (lines ++ [(empty.run steps).1.pending]) ∧
      empty.recentFrames steps
        = ((lines.map trim).filter (· ≠ [])).map Frame.classify) ∧
    '\n' ∉ (empty.run steps).1.pending ∧ ∀ f ∈ (empty.run steps).2.flatten, f.Neat := by
  obtain ⟨lines, pieces, frames⟩ := splits_recent steps
  exact ⟨⟨lines, pieces, frames⟩, pieces.clean _ (by simp), fun _ => neat_run⟩

end FrameSplitter

end Cnc
