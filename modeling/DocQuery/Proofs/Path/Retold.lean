import DocQuery.Path
import DocQuery.Proofs.Value.Order

/-!
# Changing texts in one pass

`Value.retold` changes every text in a value, by where it stands: the keys on the way to it, through
documents and the documents in arrays.  An array at the end stands for the texts among its items;
arrays in arrays are left alone.  Everything that is no text, every key, every order and every length
stays as it was.

Two passes are one if the first makes no documents and arrays of texts (`retold_retold`).
-/

namespace DocQuery.Value

/-- What becomes of a text at each place. -/
abbrev Retelling := Path → String → Value

mutual

/-- A value that stands at a place, with its texts changed. -/
def retold (change : Retelling) (place : Path) : Value → Value
  | .string s => change place s
  | .document fields => .document (retoldFields change place fields)
  | .array items => .array (retoldItems change place items)
  | value => value

def retoldFields (change : Retelling) (place : Path) : List (String × Value) → List (String × Value)
  | [] => []
  | (key, value) :: rest =>
    (key, value.retold change (place ++ [key])) :: retoldFields change place rest

/-- The items of an array stand where the array stands. -/
def retoldItems (change : Retelling) (place : Path) : List Value → List Value
  | [] => []
  | .string s :: rest => change place s :: retoldItems change place rest
  | .document fields :: rest =>
    .document (retoldFields change place fields) :: retoldItems change place rest
  | value :: rest => value :: retoldItems change place rest

end

variable {change other : Retelling}

/-- A scalar that is no text stays as it is. -/
theorem retold_of_isScalar {place : Path} {value : Value} (hvalue : value.IsScalar)
    (hstays : ∀ s, change place s = .string s) : value.retold change place = value := by
  cases value with
  | string s => exact hstays s
  | document fields => exact hvalue.elim
  | array items => exact hvalue.elim
  | _ => rfl

theorem retoldItems_cons_of_isScalar (change : Retelling) (place : Path) {item : Value}
    (hitem : item.IsScalar) (rest : List Value) :
    retoldItems change place (item :: rest) =
      item.retold change place :: retoldItems change place rest := by
  cases item with
  | document fields => exact hitem.elim
  | array items => exact hitem.elim
  | _ => rfl

mutual

/-- Where all texts stay, a value stays as it is. -/
theorem retold_of_string {place : Path} (h : ∀ path s, change (place ++ path) s = .string s)
    (value : Value) : value.retold change place = value := by
  cases value with
  | string s =>
    rw [retold]
    simpa using h [] s
  | document fields => rw [retold, retoldFields_of_string (fun path _ => h path) fields]
  | array items => rw [retold, retoldItems_of_string h items]
  | _ => rfl

/-- The fields of a document stand behind its place, not at it. -/
theorem retoldFields_of_string {place : Path}
    (h : ∀ path, path ≠ [] → ∀ s, change (place ++ path) s = .string s)
    (fields : List (String × Value)) : retoldFields change place fields = fields := by
  cases fields with
  | nil => rfl
  | cons field rest =>
    obtain ⟨key, value⟩ := field
    have hbelow : ∀ path s, change (place ++ [key] ++ path) s = .string s := by
      intro path s
      rw [List.append_assoc]
      exact h _ (by simp) s
    rw [retoldFields, retold_of_string hbelow value, retoldFields_of_string h rest]

theorem retoldItems_of_string {place : Path} (h : ∀ path s, change (place ++ path) s = .string s)
    (items : List Value) : retoldItems change place items = items := by
  cases items with
  | nil => rfl
  | cons item rest =>
    have hrest := retoldItems_of_string h rest
    have hself : ∀ s, change place s = .string s := by simpa using h []
    cases item with
    | document fields =>
      rw [retoldItems, retoldFields_of_string (fun path _ => h path) fields, hrest]
    | string s => rw [retoldItems, hself, hrest]
    | _ => simp only [retoldItems, hrest]

end

mutual

/-- Two passes are one. -/
theorem retold_retold (h : ∀ place s, (change place s).IsScalar) (place : Path) (value : Value) :
    (value.retold change place).retold other place =
      value.retold (fun place s => (change place s).retold other place) place := by
  cases value with
  | document fields => rw [retold, retold, retold, retoldFields_retoldFields h place fields]
  | array items => rw [retold, retold, retold, retoldItems_retoldItems h place items]
  | _ => rfl

theorem retoldFields_retoldFields (h : ∀ place s, (change place s).IsScalar) (place : Path)
    (fields : List (String × Value)) :
    retoldFields other place (retoldFields change place fields) =
      retoldFields (fun place s => (change place s).retold other place) place fields := by
  cases fields with
  | nil => rfl
  | cons field rest =>
    rw [retoldFields, retoldFields, retoldFields, retold_retold h,
      retoldFields_retoldFields h place rest]

theorem retoldItems_retoldItems (h : ∀ place s, (change place s).IsScalar) (place : Path)
    (items : List Value) :
    retoldItems other place (retoldItems change place items) =
      retoldItems (fun place s => (change place s).retold other place) place items := by
  cases items with
  | nil => rfl
  | cons item rest =>
    have hrest := retoldItems_retoldItems h place rest
    cases item with
    | string s =>
      rw [retoldItems, retoldItems_cons_of_isScalar _ _ (h place s), retoldItems, hrest]
    | document fields =>
      rw [retoldItems, retoldItems, retoldItems, retoldFields_retoldFields h place fields, hrest]
    | _ => simp only [retoldItems, hrest]

end

end DocQuery.Value
