import ShaderKit.Proofs.Module.FreshNames

/-!
# What becomes of a label

Sanitizing projects all texts onto those that are spelled like identifiers: what it gives is
spelled so, and a text that is spelled so already is left as it is. The result may still be a
reserved word; with a number behind it never is.
-/

namespace ShaderKit.Identifier

/-! ## Underscores in front -/

/-- Two underscores stand in front of a name until so many characters are taken away, and no
longer. -/
structure StripsAfter (name : List Char) (turns : Nat) : Prop where
  within : turns ≤ name.length
  goes : ∀ earlier < turns, isImplementationName (name.drop earlier) = true
  stops : isImplementationName (name.drop turns) = false

namespace StripsAfter

variable {rest : List Char} {turns : Nat}

theorem succ {first : Char} (doubled : isImplementationName (first :: rest) = true)
    (strips : StripsAfter rest turns) : StripsAfter (first :: rest) (turns + 1) where
  within := Nat.succ_le_succ strips.within
  goes := by
    intro earlier below
    cases earlier with
    | zero => exact doubled
    | succ earlier => exact strips.goes earlier (Nat.lt_of_succ_lt_succ below)
  stops := strips.stops

end StripsAfter

theorem dropDoubledUnderscores_turns (name : List Char) :
    ∃ turns, StripsAfter name turns ∧ dropDoubledUnderscores name = name.drop turns := by
  induction name with
  | nil => exact ⟨0, ⟨Nat.le_refl _, nofun, rfl⟩, rfl⟩
  | cons first rest induction =>
      rw [dropDoubledUnderscores]
      split
      next doubled =>
        rcases induction with ⟨turns, strips, same⟩
        exact ⟨turns + 1, strips.succ doubled, same⟩
      next ordinary =>
        exact ⟨0, ⟨Nat.zero_le _, nofun, Bool.not_eq_true _ ▸ ordinary⟩, rfl⟩

/-! ## Texts that stay as they are -/

theorem cleaned_eq_toList {name : String} (body : ∀ char ∈ name.toList, isBodyChar char = true) :
    cleaned name = name.toList := by
  have kept : ∀ char ∈ name.toList, (if isBodyChar char then char else '_') = id char :=
    fun char member => if_pos (body char member)
  rw [cleaned, List.map_congr_left kept, List.map_id]

theorem dropDoubledUnderscores_eq_self {name : List Char}
    (ordinary : isImplementationName name = false) : dropDoubledUnderscores name = name := by
  cases name with
  | nil => rfl
  | cons first rest => rw [dropDoubledUnderscores, if_neg (ordinary ▸ Bool.false_ne_true)]

theorem repairStart_eq_self {first : Char} {rest : List Char} (noDigit : ¬ first.isDigit = true)
    (named : first :: rest ≠ ['_']) : repairStart (first :: rest) = first :: rest := by
  unfold repairStart
  split
  next same => cases same
  next same => exact absurd same named
  next same =>
    cases same
    exact if_neg noDigit

theorem spelled_sanitize (label : String) : Spelled (sanitize label).toList :=
  hasIdentifierShape_iff.mp (hasIdentifierShape_sanitize label)

/-- Sanitizing leaves just the texts as they are that are spelled like identifiers. -/
theorem sanitize_eq_self_iff {name : String} : sanitize name = name ↔ Spelled name.toList := by
  constructor
  · intro same
    rw [← same]
    exact spelled_sanitize name
  · intro spelled
    have body : ∀ char ∈ name.toList, isBodyChar char = true := fun char member =>
      isBodyChar_iff.mpr (spelled.ascii char member)
    have ordinary := isImplementationName_eq_false.mpr spelled.ordinary
    rw [← String.toList_inj, toList_sanitize, cleaned_eq_toList body,
      dropDoubledUnderscores_eq_self ordinary]
    cases chars : name.toList with
    | nil => exact absurd chars spelled.nonempty
    | cons first rest =>
        rw [chars] at spelled
        exact repairStart_eq_self
          (fun digit => spelled.begins first rfl (isDigit_iff.mp digit)) spelled.named

/-! ## Sanitized labels -/

/-- Sanitizing ends for every label. It puts underscores in place of the characters that
identifiers do not have, takes underscores away while two of them stand in front, and repairs the
start of what is left. What comes out is spelled like an identifier, so it may be declared or is
reserved; what may be declared is left as it is, and so is what came out before. With an
underscore and any number behind it, what comes out may be declared. -/
theorem sanitize_projects (label : String) :
    (∃ turns, StripsAfter (cleaned label) turns ∧
      (sanitize label).toList = repairStart ((cleaned label).drop turns)) ∧
    Spelled (sanitize label).toList ∧
    (isValid (sanitize label) = true ∨ isReserved (sanitize label) = true) ∧
    (isValid label = true → sanitize label = label) ∧
    sanitize (sanitize label) = sanitize label ∧
    ∀ number : Nat, isValid (sanitize label ++ "_" ++ toString number) = true := by
  have spelled := spelled_sanitize label
  refine ⟨?_, spelled, ?_, ?_, sanitize_eq_self_iff.mpr spelled, ?_⟩
  · rcases dropDoubledUnderscores_turns (cleaned label) with ⟨turns, strips, same⟩
    exact ⟨turns, strips, by rw [toList_sanitize, same]⟩
  · cases reserved : isReserved (sanitize label) with
    | false => exact .inl (isValid_iff.mpr ⟨hasIdentifierShape_sanitize label, reserved⟩)
    | true => exact .inr rfl
  · intro valid
    exact sanitize_eq_self_iff.mpr (hasIdentifierShape_iff.mp (isValid_iff.mp valid).1)
  · exact NameRegistry.isValid_numbered (NameRegistry.isTag_sanitize label)

/-- An underscore in front of a digit stays, and a reserved name is left to the number. -/
theorem sanitize_projects_exampleNames :
    (isValid "_3d" = true ∧ sanitize "_3d" = "_3d") ∧
      isReserved "vec3f" = true ∧ sanitize "vec3f" = "vec3f" ∧ isValid "vec3f_7" = true := by
  have valid : isValid "_3d" = true := by decide +kernel
  have reserved : isReserved "vec3f" = true := by decide +kernel
  have same : sanitize "vec3f" = "vec3f" := by decide
  refine ⟨⟨valid, (sanitize_projects "_3d").2.2.2.1 valid⟩, reserved, same, ?_⟩
  have numbered := (sanitize_projects "vec3f").2.2.2.2.2 7
  rw [same] at numbered
  exact numbered

end ShaderKit.Identifier
