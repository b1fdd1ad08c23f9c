import ReconcileLoop.Error

namespace ReconcileLoop.Key

/-! # Keys and their texts

Not every key has a text that reads back as the key: a slash in a name or in a namespace, or an empty
one of them, makes a text that reads as another key or as none. Readable keys and the texts that are
accepted correspond one to one, and every other text is refused as malformed
(`Key.parse_exact`).
-/

variable {source : String} {key : Key} {fault : KeyFault}

theorem parse_eq_ok_iff : parse source = .ok key ↔ key.Readable ∧ source = key.text := by
  rw [← parse?_eq_some_iff]
  unfold parse
  cases parse? source with
  | some found => simp
  | none => simp

/-- A text is refused if it is not that of a readable key, and then as it stands. -/
theorem parse_eq_error_iff :
    parse source = .error fault ↔
      fault = .unreadable source ∧ ∀ key : Key, key.Readable → key.text ≠ source := by
  unfold parse
  cases parsed : parse? source with
  | some found =>
      obtain ⟨readable, same⟩ := readable_of_parse? parsed
      exact iff_of_false nofun fun refused => refused.2 found readable same.symm
  | none =>
      have unread (key : Key) (readable : key.Readable) : key.text ≠ source := by
        rintro rfl
        exact absurd (parsed.symm.trans (parse?_text_of_readable readable)) nofun
      exact ⟨fun same => ⟨(Except.error.inj same).symm, unread⟩, fun refused => by rw [refused.1]⟩

/-- A text that reads as a key is the text of that key. The text of a key reads as that key exactly
if its name, and its namespace if it has one, have at least one character and no slash. Any text
that is not the text of such a key is refused as malformed, and no other text is. -/
theorem parse_exact :
    (∀ source key, parse source = .ok key → key.text = source) ∧
    (∀ key : Key, parse key.text = .ok key ↔
      (key.name ≠ "" ∧ '/' ∉ key.name.toList) ∧
        ∀ space, key.space? = some space → space ≠ "" ∧ '/' ∉ space.toList) ∧
    ∀ source,
      (parse source).mapError ReconcileError.malformedKey =
          .error (.malformedKey (.unreadable source)) ↔
        ∀ key : Key, key.Readable → key.text ≠ source := by
  refine ⟨fun source key parsed => ?_, fun key => ?_, fun source => ?_⟩
  · exact (parse_eq_ok_iff.mp parsed).2.symm
  · exact parse_eq_ok_iff.trans (and_iff_left rfl)
  · constructor
    · intro refused
      cases parsed : parse source with
      | ok key => rw [parsed] at refused; contradiction
      | error fault => exact (parse_eq_error_iff.mp parsed).2
    · intro unread
      rw [parse_eq_error_iff.mpr ⟨rfl, unread⟩]
      rfl

/-- A slash in a name: the text reads as another key, or as none. -/
example : parse (text ⟨none, "ns/web"⟩) = .ok ⟨some "ns", "web"⟩ ∧
    parse (text ⟨some "ns", "a/b"⟩) = .error (.unreadable "ns/a/b") :=
  ⟨rfl, rfl⟩

end ReconcileLoop.Key
