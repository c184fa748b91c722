import Renga.Agent.Queue.Operations

/-!
# Names of queued entries

`entry_name` and `parse_entry_name`: a name is read back as what it was made of, names sort as
their entries do, and what is accepted is a name that was made, unless a number in it carries a
sign or its identifier is spelled in another way than the crate spells it.
-/

namespace Renga.Agent.Queue

variable {uuids : Uuids}

/-- The sequence and the seconds have no sign, and the identifier is written as the crate
writes it. -/
def Spelled (uuids : Uuids) (name : String) : Prop :=
  ∃ sequence seconds entryId, name.toList
      = sequence ++ '-' :: (seconds ++ '-' :: uuids.text entryId) ++ entrySuffix ∧
    '-' ∉ sequence ∧ '-' ∉ seconds ∧ '+' ∉ sequence ∧ '+' ∉ seconds

def Produced (uuids : Uuids) (name : String) : Prop :=
  ∃ sequence queuedAt entryId, sequence < 2 ^ 64 ∧ unixSeconds queuedAt < 10 ^ 12 ∧
    name = entryName uuids sequence queuedAt entryId

theorem padded_of_parseU64 {text : List Char} {width n : ℕ} (unsigned : '+' ∉ text)
    (width_eq : byteLength text = width) (read : parseU64 text = some n) :
    n < 2 ^ 64 ∧ n < 10 ^ width ∧ text = Decimal.padded width n := by
  have plain : parseU64 text = (Decimal.value? text).filter (· < 2 ^ 64) := by
    unfold parseU64
    split
    · exact absurd List.mem_cons_self unsigned
    · rfl
  obtain ⟨value, small⟩ := Option.filter_eq_some_iff.1 (plain.symm.trans read)
  obtain ⟨fits, padded⟩ := Decimal.padded_of_value? value
  have positive : 0 < text.length := List.length_pos_iff.2 (Decimal.value?_eq_some value).1
  have length : text.length = width := by
    rw [← byteLength_padded positive fits, padded, width_eq]
  rw [length] at fits padded
  exact ⟨of_decide_eq_true small, fits, padded.symm⟩

theorem produced_of_spelled {name : String} (spelled : Spelled uuids name)
    (accepted : (parseEntryName uuids name).isSome) : Produced uuids name := by
  obtain ⟨sequence, seconds, entryId, text, plain, plain', unsigned, unsigned'⟩ := spelled
  have name_eq := String.ofList_toList (s := name)
  rw [text] at name_eq
  rw [← name_eq, parseEntryName_ofList plain plain'] at accepted
  split at accepted
  · cases accepted
  rename_i widths
  obtain ⟨long, long', -⟩ := not_or.1 widths |>.imp_right not_or.1
  cases second : parseU64 seconds with
  | none =>
    rw [second] at accepted
    cases accepted
  | some s =>
    cases number : parseU64 sequence with
    | none =>
      rw [second, number] at accepted
      cases accepted
    | some n =>
      obtain ⟨small, -, rfl⟩ := padded_of_parseU64 unsigned (not_not.1 long) number
      obtain ⟨-, fits, rfl⟩ := padded_of_parseU64 unsigned' (not_not.1 long') second
      have back : unixSeconds (fromUnixSeconds s) = s := by
        unfold unixSeconds fromUnixSeconds
        omega
      refine ⟨n, fromUnixSeconds s, entryId, small, back.symm ▸ fits, ?_⟩
      rw [entryName, back, ← name_eq]

theorem spelled_of_produced {name : String} (produced : Produced uuids name) :
    Spelled uuids name := by
  obtain ⟨sequence, queuedAt, entryId, -, -, rfl⟩ := produced
  have unsigned : ∀ {width n}, '+' ∉ Decimal.padded width n := fun member =>
    absurd (Decimal.isDigit_of_mem_padded member) (by decide)
  exact ⟨_, _, entryId, String.toList_ofList, dash_not_mem_padded, dash_not_mem_padded,
    unsigned, unsigned⟩

/-- The file of an entry has the name that was made for it. -/
def Entry.Named (uuids : Uuids) (entry : Entry) : Prop :=
  entry.sequence < 2 ^ 64 ∧
    ∃ queuedAt entryId, entry.path = entryName uuids entry.sequence queuedAt entryId

variable {a b : Entry}

theorem Entry.Named.path_lt (named : a.Named uuids) (named' : b.Named uuids)
    (less : a.sequence < b.sequence) : a.path < b.path := by
  obtain ⟨small, queuedAt, entryId, path⟩ := named
  obtain ⟨small', queuedAt', entryId', path'⟩ := named'
  have short : b.sequence < 10 ^ 20 := small'.trans (by decide)
  rw [path, path', String.lt_iff_toList_lt, entryName, entryName, String.toList_ofList,
    String.toList_ofList, List.append_assoc, List.append_assoc]
  refine Decimal.append_lt_append ?_ (Decimal.padded_lt_padded (by decide) less short) _ _
  rw [Decimal.length_padded (by decide) short,
    Decimal.length_padded (by decide) (less.trans short)]

theorem Entry.Named.path_le_iff (named : a.Named uuids) (named' : b.Named uuids) :
    a.path ≤ b.path ↔ a.before b := by
  unfold Entry.before
  rcases lt_trichotomy a.sequence b.sequence with less | same | greater
  · exact iff_of_true (named.path_lt named' less).le (.inl less)
  · simp [same]
  · have path := named'.path_lt named greater
    refine iff_of_false path.not_ge ?_
    omega

/-- **Names are read back, are ordered as the entries are, and are the only ones of their
spelling that are accepted.** -/
theorem entryName_spec (uuids : Uuids) :
    (∀ sequence queuedAt entryId, sequence < 2 ^ 64 → unixSeconds queuedAt < 10 ^ 12 →
      parseEntryName uuids (entryName uuids sequence queuedAt entryId)
        = some (sequence, fromUnixSeconds (unixSeconds queuedAt))) ∧
    (∀ a b : Entry, a.Named uuids → b.Named uuids → (a.path ≤ b.path ↔ a.before b)) ∧
    ∀ name, (parseEntryName uuids name).isSome ∧ Spelled uuids name ↔ Produced uuids name := by
  refine ⟨fun _ _ entryId small fits => parseEntryName_entryName uuids entryId small fits,
    fun _ _ named named' => named.path_le_iff named', fun _ => ⟨?_, ?_⟩⟩
  · rintro ⟨accepted, spelled⟩
    exact produced_of_spelled spelled accepted
  · intro produced
    refine ⟨?_, spelled_of_produced produced⟩
    obtain ⟨sequence, queuedAt, entryId, small, fits, rfl⟩ := produced
    rw [parseEntryName_entryName uuids entryId small fits]
    rfl

/-- However the crate reads identifiers, a name with a sign is accepted and was never made. -/
theorem signed_name_accepted : ¬ ∃ uuids : Uuids, ∀ name, (parseEntryName uuids name).isSome →
    ∃ sequence queuedAt entryId, name = entryName uuids sequence queuedAt entryId := by
  rintro ⟨uuids, only⟩
  have accepted : (parseEntryName uuids (String.ofList ("+0000000000000000001".toList ++ '-' ::
      ("000000000001".toList ++ '-' :: uuids.text 0) ++ entrySuffix))).isSome := by
    rw [parseEntryName_ofList (by decide) (by decide), uuids.parses_text]
    decide
  obtain ⟨sequence, queuedAt, entryId, same⟩ := only _ accepted
  obtain ⟨c, cs, text, digit⟩ := Decimal.padded_eq_cons 20 sequence
  rw [entryName, text, String.ofList_inj] at same
  cases (List.cons.inj same).1
  cases digit

end Renga.Agent.Queue
