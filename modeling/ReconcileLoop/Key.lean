import ReconcileLoop.Text.Quoted
import Std.Data.ExtTreeMap

namespace ReconcileLoop

/-! # Object keys

A key names one object of a kind: a name, and a namespace unless the object belongs to the whole
cluster. Its text is `namespace/name`, or `name` alone. The main statement is `Key.parse?_eq_some_iff`:
reading accepts exactly the texts of readable keys, so such a key has one text.
-/

/-- The identity of one object: what caches are indexed by and what workers are handed. -/
structure Key where
  /-- The namespace, if the object belongs to one. -/
  space? : Option String
  name : String
deriving DecidableEq, Repr, Inhabited

namespace Key

/-- Keys are ordered by namespace, the cluster's own first, and then by name. -/
instance : Ord Key where
  compare := compareLex (compareOn Key.space?) (compareOn Key.name)

theorem compare_def : (compare : Key → Key → Ordering) =
    compareLex (compareOn Key.space?) (compareOn Key.name) := rfl

instance : Std.TransOrd Key where
  eq_swap {a b} := by rw [compare_def]; exact Std.OrientedCmp.eq_swap
  isLE_trans {a b c} := by rw [compare_def]; exact Std.TransCmp.isLE_trans

instance : Std.LawfulEqOrd Key where
  eq_of_compare {a b} equal := by
    obtain ⟨aSpace, aName⟩ := a
    obtain ⟨bSpace, bName⟩ := b
    simp only [compare_def, compareLex, compareOn, Ordering.then_eq_eq] at equal
    simp [Std.LawfulEqOrd.eq_of_compare equal.1, Std.LawfulEqOrd.eq_of_compare equal.2]

def cluster (name : String) : Key := ⟨none, name⟩

def namespaced (space name : String) : Key := ⟨some space, name⟩

/-- The text of a key. It is not injective on all keys: a name may hold a slash. -/
def text (key : Key) : String :=
  match key.space? with
  | some space => space ++ "/" ++ key.name
  | none => key.name

instance : ToString Key := ⟨text⟩

/-- A segment of a readable key has at least one character and no slash. -/
def Segment (segment : String) : Prop := segment ≠ "" ∧ '/' ∉ segment.toList

instance (segment : String) : Decidable (Segment segment) :=
  inferInstanceAs (Decidable (_ ∧ _))

/-- Whether the text of the key reads back as the key. -/
def Readable (key : Key) : Prop :=
  Segment key.name ∧ ∀ space, key.space? = some space → Segment space

/-- What stands before the first slash, and what stands after it if there is one. -/
def cut : List Char → List Char × Option (List Char)
  | [] => ([], none)
  | c :: rest => if c = '/' then ([], some rest) else (c :: (cut rest).1, (cut rest).2)

theorem cut_plain {segment : List Char} (plain : '/' ∉ segment) : cut segment = (segment, none) := by
  induction segment with
  | nil => rfl
  | cons c tail ih =>
      rw [List.mem_cons, not_or] at plain
      simp [cut, Ne.symm plain.1, ih plain.2]

theorem cut_append {segment : List Char} (plain : '/' ∉ segment) (rest : List Char) :
    cut (segment ++ '/' :: rest) = (segment, some rest) := by
  induction segment with
  | nil => simp [cut]
  | cons c tail ih =>
      rw [List.mem_cons, not_or] at plain
      simp [cut, Ne.symm plain.1, ih plain.2]

theorem append_cut (text : List Char) :
    text = (cut text).1 ++ ((cut text).2.map ('/' :: ·)).getD [] := by
  induction text with
  | nil => simp [cut]
  | cons c tail ih =>
      by_cases slash : c = '/'
      · simp [cut, slash]
      · simp only [cut, slash, if_false, List.cons_append, List.cons.injEq, true_and]
        exact ih

/-- The key whose segments are given, if they may stand in a key. -/
def ofSegments? : List Char × Option (List Char) → Option Key
  | (name, none) =>
      if Segment (String.ofList name) then some (cluster (String.ofList name)) else none
  | (space, some name) =>
      if Segment (String.ofList space) ∧ Segment (String.ofList name) then
        some (namespaced (String.ofList space) (String.ofList name))
      else none

/-- Reads `namespace/name` or `name`, whose segments have to be nonempty and without a slash. -/
def parse? (source : String) : Option Key := ofSegments? (cut source.toList)

/-- A text that reads as a key is the text of that key, which is readable. -/
theorem readable_of_parse? {source : String} {key : Key} (parsed : parse? source = some key) :
    key.Readable ∧ source = key.text := by
  have whole := append_cut source.toList
  unfold parse? at parsed
  revert whole parsed
  generalize cut source.toList = segments
  intro parsed whole
  obtain ⟨first, none | second⟩ := segments
  · simp only [ofSegments?] at parsed
    split at parsed
    · next segment =>
        cases parsed
        refine ⟨⟨segment, by simp [cluster]⟩, String.toList_injective ?_⟩
        simpa [text, cluster] using whole
    · contradiction
  · simp only [ofSegments?] at parsed
    split at parsed
    · next segments =>
        cases parsed
        refine ⟨⟨segments.2, ?_⟩, String.toList_injective ?_⟩
        · rintro space ⟨⟩
          exact segments.1
        · simpa [text, namespaced] using whole
    · contradiction

theorem parse?_text_of_readable {key : Key} (readable : key.Readable) :
    parse? key.text = some key := by
  obtain ⟨space?, name⟩ := key
  obtain ⟨segment, spaced⟩ := readable
  cases space? with
  | none =>
      have chars : (text ⟨none, name⟩).toList = name.toList := rfl
      rw [parse?, chars, cut_plain segment.2, ofSegments?, String.ofList_toList, if_pos segment]
      rfl
  | some space =>
      have spaceSegment := spaced space rfl
      have chars : (text ⟨some space, name⟩).toList = space.toList ++ '/' :: name.toList := by
        simp [text]
      rw [parse?, chars, cut_append spaceSegment.2, ofSegments?]
      simp only [String.ofList_toList]
      rw [if_pos ⟨spaceSegment, segment⟩]
      rfl

/-- Reading accepts exactly the texts of readable keys, each as the key it is the text of. -/
theorem parse?_eq_some_iff {source : String} {key : Key} :
    parse? source = some key ↔ key.Readable ∧ source = key.text :=
  ⟨readable_of_parse?, fun ⟨readable, same⟩ => same ▸ parse?_text_of_readable readable⟩

end Key

end ReconcileLoop
