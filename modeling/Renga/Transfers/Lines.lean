import Renga.Lib.Lines

/-!
# Lines of an archive

`Renga.Transfers.Archive.Lines` splits a stream of chunks into newline-terminated lines.
What a splitter keeps of the line it is in does not depend on the chunks that line came in:
it is `opened max text` for the bytes `text` since the last newline.
-/

namespace Renga.Transfers.Archive

open List

abbrev Bytes := List UInt8

def newline : UInt8 := 10

inductive Item where
  | line (line : Bytes)
  | tooLong (bytes : ℕ)
  | unterminated
  deriving DecidableEq

/-- A splitter.  No `max` is `:infinity`, and `buffer` holds the bytes of the source's iodata. -/
structure Lines where
  max : Option ℕ := none
  buffer : Bytes := []
  size : ℕ := 0
  skipping : Bool := false
  deriving DecidableEq

namespace Lines

def new (max : Option ℕ) : Lines := { max }

def append (lines : Lines) (part : Bytes) : Lines :=
  let size := lines.size + part.length
  if lines.skipping then { lines with size }
  else if lines.max.any (· < size) then { lines with buffer := [], size, skipping := true }
  else { lines with buffer := lines.buffer ++ part, size }

def take (lines : Lines) : Item × Lines :=
  if lines.skipping then
    (.tooLong lines.size, { lines with buffer := [], size := 0, skipping := false })
  else (.line lines.buffer, { lines with buffer := [], size := 0 })

def feed (lines : Lines) (chunk : Bytes) : List Item × Lines :=
  match _split : Lines.splitOnce newline chunk with
  | none => ([], lines.append chunk)
  | some (head, rest) =>
    let (item, lines) := (lines.append head).take
    let (items, lines) := feed lines rest
    (item :: items, lines)
termination_by chunk.length
decreasing_by
  rw [(Lines.splitOnce_eq_some _split).2, length_append, length_cons]
  omega

def finish (lines : Lines) : List Item :=
  if lines.size = 0 ∧ ¬ lines.skipping then [] else [.unterminated]

/-- What the transform of `stream` has returned, and its accumulator, after these chunks. -/
def feedAll (lines : Lines) : List Bytes → List Item × Lines
  | [] => ([], lines)
  | chunk :: chunks =>
    let (items, lines) := lines.feed chunk
    let (later, lines) := lines.feedAll chunks
    (items ++ later, lines)

def stream (chunks : List Bytes) (max : Option ℕ) : List Item :=
  let (items, lines) := (new max).feedAll chunks
  items ++ lines.finish

/-! ### What a splitter knows of the line it is in -/

variable {max : Option ℕ} {text part bytes : Bytes}

/-- How a complete line is returned. -/
def item (max : Option ℕ) (line : Bytes) : Item :=
  if max.any (· < line.length) then .tooLong line.length else .line line

def opened (max : Option ℕ) (text : Bytes) : Lines :=
  if max.any (· < text.length) then { max, size := text.length, skipping := true }
  else { max, buffer := text, size := text.length }

theorem opened_nil : opened max [] = new max := by
  cases max <;> rfl

theorem append_opened : (opened max text).append part = opened max (text ++ part) := by
  have longer : max.any (· < text.length) → max.any (· < text.length + part.length) := by
    cases max with
    | none => exact id
    | some =>
      simp only [Option.any_some, decide_eq_true_eq]
      omega
  unfold opened append
  by_cases long : max.any (· < text.length)
  · simp [long, longer long]
  · simp [long]

theorem take_opened : (opened max text).take = (item max text, new max) := by
  unfold opened item
  split <;> rfl

theorem length_buffer_opened {limit : ℕ} : (opened (some limit) text).buffer.length ≤ limit := by
  unfold opened
  split
  · exact Nat.zero_le limit
  · rename_i fits
    simpa using fits

theorem finish_opened : (opened max text).finish = if text = [] then [] else [.unterminated] := by
  cases text with
  | nil =>
    rw [opened_nil]
    rfl
  | cons =>
    unfold opened finish
    split <;> simp

/-! ### Chunks -/

/-- The bytes are lines, each with its newline, and the start of another one.  The lines have
been returned and the splitter is within the other one. -/
def Reads (max : Option ℕ) (bytes : Bytes) (result : List Item × Lines) : Prop :=
  ∃ (lines : List Bytes) (rest : Bytes), (∀ line ∈ lines, newline ∉ line) ∧ newline ∉ rest ∧
    bytes = lines.flatMap (· ++ [newline]) ++ rest ∧
    result = (lines.map (item max), opened max rest)

theorem feed_reads (plain : newline ∉ text) (chunk : Bytes) :
    Reads max (text ++ chunk) ((opened max text).feed chunk) := by
  induction size : chunk.length using Nat.strongRecOn generalizing chunk text with
  | ind _ ih =>
  unfold feed
  split
  · rename_i split
    refine ⟨[], text ++ chunk, nofun, ?_, rfl, ?_⟩
    · exact not_mem_append plain (Lines.splitOnce_eq_none split)
    · rw [append_opened]
      rfl
  · rename_i head rest split
    obtain ⟨front, rfl⟩ := Lines.splitOnce_eq_some split
    obtain ⟨lines, last, plains, ends, joined, result⟩ := ih rest.length
      (by rw [← size, length_append, length_cons]; omega) not_mem_nil rest rfl
    refine ⟨(text ++ head) :: lines, last, ?_, ends, ?_, ?_⟩
    · exact forall_mem_cons.2 ⟨not_mem_append plain front, plains⟩
    · rw [nil_append] at joined
      simp [joined]
    · rw [opened_nil] at result
      simp only [append_opened, take_opened, result, map_cons]

theorem feedAll_reads (plain : newline ∉ text) (chunks : List Bytes) :
    Reads max (text ++ chunks.flatten) ((opened max text).feedAll chunks) := by
  induction chunks generalizing text with
  | nil => exact ⟨[], text, nofun, plain, append_nil _, rfl⟩
  | cons chunk _ ih =>
    obtain ⟨lines, _, plains, ends, joined, result⟩ := feed_reads plain chunk
    obtain ⟨later, last, plains', ends', joined', result'⟩ := ih ends
    refine ⟨lines ++ later, last, ?_, ends', ?_, ?_⟩
    · exact forall_mem_append.2 ⟨plains, plains'⟩
    · rw [flatten_cons, ← append_assoc, joined, append_assoc, joined',
        flatMap_append, append_assoc]
    · unfold feedAll
      rw [result]
      simp only []
      rw [result', map_append]

variable {lines : List Bytes} {rest : Bytes}

theorem rest_eq_nil_iff (ends : newline ∉ rest)
    (joined : bytes = lines.flatMap (· ++ [newline]) ++ rest) :
    rest = [] ↔ bytes = [] ∨ bytes.getLast? = some newline := by
  subst joined
  constructor
  · rintro rfl
    rcases eq_nil_or_concat lines with rfl | ⟨_, line, rfl⟩
    · exact .inl rfl
    · right
      simp
  · rintro (empty | last)
    · exact (append_eq_nil_iff.1 empty).2
    · by_contra some
      rw [getLast?_append_of_ne_nil _ some] at last
      exact ends (mem_of_getLast? last)

/-- **Whatever the chunks are, the items are those of the lines of the joined bytes.**  A
line comes out as such if it is within the limit and as too long otherwise; `:unterminated`
is reported iff bytes were left after the last newline; and the splitter never keeps more
than one line's maximum between two chunks, nor at any newline within one, since the state
there is the one after a chunk that ends with it. -/
theorem stream_spec (max : Option ℕ) (chunks : List Bytes) :
    let bytes := chunks.flatten
    let lines := (bytes.splitOn newline).dropLast
    let state := ((new max).feedAll chunks).2
    stream chunks max = lines.map (item max) ++ state.finish ∧
      ((∃ n, .tooLong n ∈ stream chunks max) ↔ ∃ line ∈ lines, max.any (· < line.length)) ∧
      (state.finish = [.unterminated] ↔ bytes ≠ [] ∧ bytes.getLast? ≠ some newline) ∧
      ∀ limit, max = some limit → state.buffer.length ≤ limit := by
  intro bytes lines state
  obtain ⟨found, rest, plains, ends, joined, result⟩ :
      Reads max bytes ((opened max []).feedAll chunks) := feedAll_reads not_mem_nil chunks
  rw [opened_nil] at result
  have lines_eq : lines = found := by
    show (bytes.splitOn newline).dropLast = found
    rw [joined, Lines.splitOn_flatMap plains ends, dropLast_concat]
  have state_eq : state = opened max rest := congrArg Prod.snd result
  have streamed : stream chunks max = lines.map (item max) ++ state.finish := by
    rw [lines_eq, state_eq, stream, result]
  have ending : state.finish = if rest = [] then [] else [.unterminated] := by
    rw [state_eq, finish_opened]
  refine ⟨streamed, ?_, ?_, ?_⟩
  · have finished : ∀ n, Item.tooLong n ∉ state.finish := by
      intro n
      rw [ending]
      split <;> simp
    simp only [streamed, mem_append, finished, or_false, mem_map]
    constructor
    · rintro ⟨_, line, member, long⟩
      refine ⟨line, member, ?_⟩
      by_contra short
      rw [item, if_neg short] at long
      cases long
    · rintro ⟨line, member, long⟩
      exact ⟨line.length, line, member, if_pos long⟩
  · rw [ending, ← not_or, ← rest_eq_nil_iff ends joined]
    split <;> simp_all
  · rintro _ rfl
    rw [state_eq]
    exact length_buffer_opened

end Lines

end Renga.Transfers.Archive
