import WifiOffload.Config.Accepted

/-!
# What a load returns

A successful load returns one class for every entry of `path_classes`, in their order, and the
list is `WellFormed`. Where all entries parse, only the checks across classes are left, and these
refuse a list exactly when two of its classes share a key.
-/

namespace WifiOffload

open ConfigLoader Load

/-- The entries of the `path_classes` array, where the document has one. -/
def Json.pathClasses (root : Json) : Option (List Json) :=
  match root with
  | .object members =>
    match members.lookup (Bytes.ascii "path_classes") with
    | some (.array entries) => some entries
    | _ => none
  | _ => none

/-- Two classes of the list have a key in common. -/
def SharesKey (classes : List PathClassConfig) : Prop :=
  ∃ A B, [A, B].Sublist classes ∧
    (A.id = B.id ∨ A.classid = B.classid ∨ A.mark = B.mark ∨ A.routingTable = B.routingTable)

/-- One class for every entry, in their order. -/
def ParsedAs (bits : Nat) : List Json → List PathClassConfig → Prop :=
  List.Forall₂ fun entry cls => parsePathClass bits entry = .ok cls

namespace ConfigLoader

variable {bits : Nat} {root : Json} {entries : List Json} {classes : List PathClassConfig}

theorem pathClasses_eq_some_iff : root.pathClasses = some entries ↔
    root.contains (Bytes.ascii "path_classes") = true ∧
      root.member (Bytes.ascii "path_classes") = .ok (.array entries) := by
  unfold Json.pathClasses Json.contains Json.member
  cases root with
  | object members =>
    cases hlookup : members.lookup (Bytes.ascii "path_classes") with
    | none => simp [hlookup]
    | some v => cases v <;> simp [hlookup]
  | null | boolean | integer | float | string | array => simp

/-- `loadRoot` behind its schema checks. -/
theorem loadRoot_of_pathClasses (h : root.pathClasses = some entries) (hne : entries ≠ []) :
    loadRoot bits root = (do
      let classes ← entries.mapM (parsePathClass bits)
      validateClasses classes
      return classes) := by
  obtain ⟨hcontains, hmember⟩ := pathClasses_eq_some_iff.mp h
  have hnonempty : decide (entries ≠ []) = true := decide_eq_true hne
  rw [loadRoot, hcontains, hmember]
  simp only [require, if_true, access]
  change (do
    require (decide (entries ≠ [])) .invalidSchema
    let classes ← entries.mapM (parsePathClass bits)
    validateClasses classes
    return classes) = _
  rw [hnonempty]
  rfl

/-- The checks across classes end with `InvalidValue` where they fail. -/
theorem validateFrom_cases (seen : Seen) (classes : List PathClassConfig) :
    validateFrom seen classes = .ok () ∨
      validateFrom seen classes = .error (.returned .invalidValue) := by
  induction classes generalizing seen with
  | nil => exact .inl rfl
  | cons cls classes ih =>
    have hrequire {ok : Bool} {x : Load Unit} (hx : x = .ok () ∨
        x = .error (.returned .invalidValue)) : (do require ok .invalidValue; x) = .ok () ∨
          (do require ok .invalidValue; x) = .error (.returned .invalidValue) := by
      cases ok with
      | true => exact hx
      | false => exact .inr rfl
    exact hrequire (hrequire (hrequire (hrequire (ih _))))

theorem nodup_map_iff {α : Type} {key : PathClassConfig → α} :
    (classes.map key).Nodup ↔ ∀ A B, [A, B].Sublist classes → key A ≠ key B := by
  rw [List.Nodup, List.pairwise_map, List.pairwise_iff_forall_sublist]

/-- The checks across classes pass a list exactly when no two of its classes share a key. -/
theorem validateClasses_ok_iff : validateClasses classes = .ok () ↔ ¬ SharesKey classes := by
  rw [validateClasses, validateFrom_ok]
  simp only [nodup_map_iff, SharesKey]
  constructor
  · rintro ⟨⟨hid, -⟩, ⟨hclassid, -⟩, ⟨hmark, -⟩, ⟨htable, -⟩⟩ ⟨A, B, hsub, h | h | h | h⟩
    · exact hid A B hsub h
    · exact hclassid A B hsub h
    · exact hmark A B hsub h
    · exact htable A B hsub h
  · intro h
    refine ⟨⟨fun A B hsub heq => ?_, by simp⟩, ⟨fun A B hsub heq => ?_, by simp⟩,
      ⟨fun A B hsub heq => ?_, by simp⟩, ⟨fun A B hsub heq => ?_, by simp⟩⟩
    · exact h ⟨A, B, hsub, .inl heq⟩
    · exact h ⟨A, B, hsub, .inr (.inl heq)⟩
    · exact h ⟨A, B, hsub, .inr (.inr (.inl heq))⟩
    · exact h ⟨A, B, hsub, .inr (.inr (.inr heq))⟩

theorem validateClasses_of_sharesKey (h : SharesKey classes) :
    validateClasses classes = .error (.returned .invalidValue) :=
  (validateFrom_cases {} classes).resolve_left fun hok => validateClasses_ok_iff.mp hok h

/-- Where all entries parse, the checks across classes decide. -/
theorem loadRoot_of_parsedAs (hentries : root.pathClasses = some entries) (hne : entries ≠ [])
    (hparsed : ParsedAs bits entries classes) :
    loadRoot bits root = (do validateClasses classes; return classes) := by
  rw [loadRoot_of_pathClasses hentries hne, mapM_ok_iff.mpr hparsed]
  rfl

theorem pathClasses_of_loadRoot (h : loadRoot bits root = .ok classes) :
    ∃ entries, root.pathClasses = some entries ∧ entries ≠ [] ∧
      ParsedAs bits entries classes := by
  simp only [loadRoot, load_bind_ok, load_pure_ok, require_ok, decide_eq_true_eq,
    exists_and_left, exists_const] at h
  obtain ⟨hcontains, arr, harr, hisArray, hne, cs, hmap, -, -, rfl⟩ := h
  cases arr with
  | array entries =>
    have hmember : root.member (Bytes.ascii "path_classes") = .ok (.array entries) := by
      revert harr
      cases root.member (Bytes.ascii "path_classes") <;> simp [access]
    exact ⟨entries, pathClasses_eq_some_iff.mpr ⟨hcontains, hmember⟩, hne, mapM_ok_iff.mp hmap⟩
  | null | boolean | integer | float | string | object => cases hisArray

/-- What a load returns corresponds to the entries of the document and is well formed, and a
document whose entries parse to classes that share a key is refused. -/
theorem loadFromFile_spec (bits : Nat) (parse : Bytes → Except JsonException Json)
    (content : Option Bytes) :
    (∀ classes, loadFromFile bits parse content = .ok classes →
      ∃ text root entries, content = some text ∧ parse text = .ok root ∧
        root.pathClasses = some entries ∧ ParsedAs bits entries classes ∧ WellFormed classes) ∧
    (∀ text root entries classes, content = some text → parse text = .ok root →
      root.pathClasses = some entries → ParsedAs bits entries classes → SharesKey classes →
      loadFromFile bits parse content = .error (.returned .invalidValue)) := by
  constructor
  · intro classes h
    unfold loadFromFile at h
    split at h
    · cases h
    next text =>
    split at h
    · cases h
    · cases h
    next root hroot =>
    obtain ⟨entries, hentries, -, hparsed⟩ := pathClasses_of_loadRoot h
    exact ⟨text, root, entries, rfl, hroot, hentries, hparsed, loadRoot_wellFormed h⟩
  · rintro text root entries classes rfl hroot hentries hparsed hshares
    have hne : entries ≠ [] := by
      rintro rfl
      obtain ⟨A, B, hsub, -⟩ := hshares
      rw [List.forall₂_nil_left_iff.mp hparsed] at hsub
      cases hsub
    simp only [loadFromFile, hroot]
    rw [loadRoot_of_parsedAs hentries hne hparsed, validateClasses_of_sharesKey hshares]
    rfl

/-- The shipped document loads, and with its first entry twice it is refused. -/
theorem loadFromFile_pathPolicies :
    WellFormed pathPolicies ∧
      loadFromFile 64 (fun _ => .ok (document [pathPoliciesJson[0], pathPoliciesJson[0]])) (some [])
        = .error (.returned .invalidValue) := by
  constructor
  · obtain ⟨_, _, _, -, -, -, -, hwf⟩ := (loadFromFile_spec 64
      (fun _ => .ok (document pathPoliciesJson)) (some [])).1 pathPolicies rfl
    exact hwf
  · refine (loadFromFile_spec 64 _ (some [])).2 [] (document [pathPoliciesJson[0],
      pathPoliciesJson[0]]) _ [pathPolicies[0], pathPolicies[0]] rfl rfl rfl ?_ ?_
    · exact .cons rfl (.cons rfl .nil)
    · exact ⟨_, _, .refl _, .inl rfl⟩

end ConfigLoader
end WifiOffload
