import DocQuery.Keyed
import Mathlib.Data.List.Basic
import Mathlib.Data.List.Induction

/-!
# Laws of lists with keys

Where a new key goes, and what the operations do to the keys of a list.
-/

namespace DocQuery.Keyed

variable {α : Type}

@[simp] theorem keys_append (pairs others : List (String × α)) :
    keys (pairs ++ others) = keys pairs ++ keys others := List.map_append

theorem contains_iff_mem_keys {key : String} {pairs : List (String × α)} :
    (pairs.lookup key).isSome = true ↔ key ∈ keys pairs := by
  induction pairs with
  | nil => simp [keys]
  | cons pair rest ih =>
    obtain ⟨k, v⟩ := pair
    by_cases h : key = k
    · subst h
      simp [keys]
    · have h' : (key == k) = false := by simpa using h
      simp only [keys] at ih
      simp [keys, List.lookup_cons, h', h, ih]

theorem lookup_eq_none_iff {key : String} {pairs : List (String × α)} :
    pairs.lookup key = none ↔ key ∉ keys pairs := by
  rw [← contains_iff_mem_keys]
  cases pairs.lookup key <;> simp

/-- A new key becomes the last one. -/
theorem adjust_of_notMem {key : String} {pairs : List (String × α)} (h : key ∉ keys pairs)
    (f : Option α → α) : adjust key f pairs = pairs ++ [(key, f none)] := by
  induction pairs with
  | nil => rfl
  | cons pair rest ih =>
    obtain ⟨k, v⟩ := pair
    simp only [keys, List.map_cons, List.mem_cons, not_or] at h
    rw [adjust, if_neg (Ne.symm h.1), ih h.2, List.cons_append]

theorem put_of_notMem {key : String} {pairs : List (String × α)} (h : key ∉ keys pairs)
    (value : α) : put key value pairs = pairs ++ [(key, value)] :=
  adjust_of_notMem h _

theorem mem_of_lookup {key : String} {value : α} {pairs : List (String × α)}
    (h : pairs.lookup key = some value) : (key, value) ∈ pairs := by
  induction pairs with
  | nil => cases h
  | cons pair rest ih =>
    obtain ⟨k, v⟩ := pair
    by_cases hk : key = k
    · subst hk
      rw [List.lookup_cons_self] at h
      cases h
      exact List.mem_cons_self
    · have hbeq : (key == k) = false := by simpa using hk
      rw [List.lookup_cons, hbeq] at h
      exact List.mem_cons_of_mem _ (ih h)

/-- With distinct keys, a key holds the value of any pair of it. -/
theorem lookup_of_mem {key : String} {value : α} {pairs : List (String × α)}
    (hpairs : Distinct pairs) (h : (key, value) ∈ pairs) : pairs.lookup key = some value := by
  induction pairs with
  | nil => cases h
  | cons pair rest ih =>
    obtain ⟨k, v⟩ := pair
    obtain ⟨hk, hrest⟩ := List.nodup_cons.1 hpairs
    rcases List.mem_cons.1 h with hhead | hmem
    · cases hhead
      exact List.lookup_cons_self
    · have hne : key ≠ k := by
        rintro rfl
        exact hk (List.mem_map.2 ⟨_, hmem, rfl⟩)
      have hbeq : (key == k) = false := by simpa using hne
      rw [List.lookup_cons, hbeq]
      exact ih hrest hmem

/-- With distinct keys, the keys in their order and what each of them holds say all about a list. -/
theorem eq_of_lookup {pairs others : List (String × α)} (hpairs : Distinct pairs)
    (hkeys : keys pairs = keys others)
    (hlookup : ∀ key, pairs.lookup key = others.lookup key) : pairs = others := by
  induction pairs generalizing others with
  | nil => exact (List.map_eq_nil_iff.1 hkeys.symm).symm
  | cons pair rest ih =>
    obtain ⟨key, value⟩ := pair
    cases others with
    | nil => cases hkeys
    | cons other others =>
      obtain ⟨key', value'⟩ := other
      obtain ⟨rfl, hrest⟩ := List.cons.inj hkeys
      obtain ⟨hkey, hdistinct⟩ := List.nodup_cons.1 hpairs
      have hvalue := hlookup key
      rw [List.lookup_cons_self, List.lookup_cons_self, Option.some.injEq] at hvalue
      rw [hvalue, ih hdistinct hrest fun name => ?_]
      by_cases hname : name = key
      · -- the key stands in neither rest
        subst hname
        have hkey' : name ∉ keys others := fun h => hkey (hrest ▸ h)
        rw [lookup_eq_none_iff.2 hkey, lookup_eq_none_iff.2 hkey']
      · have hbeq : (name == key) = false := by simpa using hname
        have hname := hlookup name
        rwa [List.lookup_cons, List.lookup_cons, hbeq] at hname

/-! ### Changing a key -/

theorem mem_adjust {key : String} {f : Option α → α} {pairs : List (String × α)}
    {pair : String × α} (h : pair ∈ adjust key f pairs) :
    pair ∈ pairs ∨ pair = (key, f (pairs.lookup key)) := by
  induction pairs with
  | nil => exact .inr (List.mem_singleton.1 h)
  | cons first rest ih =>
    obtain ⟨k, v⟩ := first
    rw [adjust] at h
    split at h
    · next hk =>
      subst hk
      rw [List.lookup_cons_self]
      rcases List.mem_cons.1 h with h | h
      · exact .inr h
      · exact .inl (List.mem_cons_of_mem _ h)
    · next hk =>
      have hbeq : (key == k) = false := by simpa using Ne.symm hk
      rw [List.lookup_cons, hbeq]
      rcases List.mem_cons.1 h with h | h
      · exact .inl (h ▸ List.mem_cons_self)
      · exact (ih h).imp_left (List.mem_cons_of_mem _)

theorem self_mem_adjust (key : String) (f : Option α → α) (pairs : List (String × α)) :
    (key, f (pairs.lookup key)) ∈ adjust key f pairs :=
  mem_of_lookup (lookup_adjust_self key f pairs)

theorem put_ne_nil (key : String) (value : α) (pairs : List (String × α)) :
    put key value pairs ≠ [] :=
  List.ne_nil_of_mem (self_mem_adjust key _ pairs)

/-- A pair stays, unless it is the one that is changed. -/
theorem mem_adjust_of_mem {key : String} {f : Option α → α} {pairs : List (String × α)}
    {pair : String × α} (h : pair ∈ pairs) :
    pair ∈ adjust key f pairs ∨ pair.1 = key ∧ pairs.lookup key = some pair.2 := by
  induction pairs with
  | nil => cases h
  | cons first rest ih =>
    obtain ⟨k, v⟩ := first
    rw [adjust]
    by_cases hk : k = key
    · subst hk
      rw [if_pos rfl]
      rcases List.mem_cons.1 h with rfl | h
      · exact .inr ⟨rfl, List.lookup_cons_self⟩
      · exact .inl (List.mem_cons_of_mem _ h)
    · have hbeq : (key == k) = false := by simpa using Ne.symm hk
      rw [if_neg hk, List.lookup_cons, hbeq]
      rcases List.mem_cons.1 h with rfl | h
      · exact .inl List.mem_cons_self
      · exact (ih h).imp_left (List.mem_cons_of_mem _)

theorem keys_adjust (key : String) (f : Option α → α) (pairs : List (String × α)) :
    keys (adjust key f pairs) = if key ∈ keys pairs then keys pairs else keys pairs ++ [key] := by
  induction pairs with
  | nil => simp [adjust, keys]
  | cons first rest ih =>
    obtain ⟨k, v⟩ := first
    rw [adjust]
    by_cases hk : k = key
    · subst hk
      simp [keys]
    · rw [if_neg hk]
      simp only [keys, List.map_cons, List.mem_cons, Ne.symm hk, false_or] at ih ⊢
      rw [ih]
      by_cases hmem : key ∈ rest.map Prod.fst <;> simp [hmem]

theorem mem_keys_adjust {key other : String} {f : Option α → α} {pairs : List (String × α)} :
    other ∈ keys (adjust key f pairs) ↔ other = key ∨ other ∈ keys pairs := by
  rw [keys_adjust]
  split
  · exact ⟨.inr, by rintro (rfl | h) <;> assumption⟩
  · rw [List.mem_append, List.mem_singleton, or_comm]

theorem Distinct.adjust {pairs : List (String × α)} (h : Distinct pairs) (key : String)
    (f : Option α → α) : Distinct (adjust key f pairs) := by
  rw [Distinct, keys_adjust]
  split
  · exact h
  · next hkey => exact List.nodup_append.2 ⟨h, by simp, by
      rintro a ha b hb rfl
      exact hkey (List.mem_singleton.1 hb ▸ ha)⟩

/-- The key of a pair is new to the pairs in front of it. -/
theorem Distinct.notMem_front {before after : List (String × α)} {pair : String × α}
    (h : Distinct (before ++ pair :: after)) : pair.1 ∉ keys before := by
  rw [Distinct, keys_append] at h
  exact fun hmem => (List.nodup_append.1 h).2.2 pair.1 hmem pair.1 (by simp [keys]) rfl

/-- Pairs with new keys come last. -/
theorem putAll_of_distinct {done pairs : List (String × α)} (h : Distinct (done ++ pairs)) :
    putAll done pairs = done ++ pairs := by
  induction pairs generalizing done with
  | nil => simp [putAll]
  | cons pair rest ih =>
    obtain ⟨k, v⟩ := pair
    have hsplit : done ++ (k, v) :: rest = done ++ [(k, v)] ++ rest := by simp
    have hput : putAll done ((k, v) :: rest) = putAll (done ++ [(k, v)]) rest := by
      rw [← put_of_notMem h.notMem_front]
      rfl
    rw [hput, hsplit, ih (hsplit ▸ h)]

theorem ofList_of_distinct {pairs : List (String × α)} (h : Distinct pairs) :
    ofList pairs = pairs := putAll_of_distinct h

/-! ### Each key once -/

theorem ofList_append_singleton (pairs : List (String × α)) (key : String) (value : α) :
    ofList (pairs ++ [(key, value)]) = put key value (ofList pairs) := by
  simp [ofList, putAll]

/-- The keys stand in the order of their first pairs. -/
theorem keys_ofList (pairs : List (String × α)) : keys (ofList pairs) = (keys pairs).eraseDups := by
  induction pairs using List.reverseRecOn with
  | nil => rfl
  | append_singleton pairs pair ih =>
    obtain ⟨key, value⟩ := pair
    have hlast : keys (pairs ++ [(key, value)]) = keys pairs ++ [key] := by simp [keys]
    rw [ofList_append_singleton, put, keys_adjust, ih, hlast, List.eraseDups_append]
    by_cases hkey : key ∈ keys pairs <;> simp [hkey, List.removeAll, List.eraseDups_cons]

theorem distinct_ofList (pairs : List (String × α)) : Distinct (ofList pairs) := by
  induction pairs using List.reverseRecOn with
  | nil => exact List.nodup_nil
  | append_singleton pairs pair ih =>
    rw [ofList_append_singleton]
    exact ih.adjust pair.1 _

/-- A key holds the value of its last pair. -/
theorem lookup_ofList (pairs : List (String × α)) (key : String) :
    (ofList pairs).lookup key = pairs.reverse.lookup key := by
  induction pairs using List.reverseRecOn with
  | nil => rfl
  | append_singleton pairs pair ih =>
    obtain ⟨last, value⟩ := pair
    rw [ofList_append_singleton, List.reverse_append, List.reverse_singleton, List.singleton_append]
    by_cases hkey : key = last
    · subst hkey
      rw [put, lookup_adjust_self, List.lookup_cons_self]
    · rw [put, lookup_adjust_of_ne hkey, List.lookup_cons, beq_false_of_ne hkey, ih]

theorem mem_of_mem_ofList {pairs : List (String × α)} {pair : String × α} (h : pair ∈ ofList pairs) :
    pair ∈ pairs := by
  obtain ⟨key, value⟩ := pair
  have hlookup := lookup_of_mem (distinct_ofList pairs) h
  rw [lookup_ofList] at hlookup
  exact List.mem_reverse.1 (mem_of_lookup hlookup)

theorem eraseDups_sublist (names : List String) : names.eraseDups.Sublist names := by
  match names with
  | [] => simp
  | name :: rest =>
    rw [List.eraseDups_cons]
    exact ((eraseDups_sublist _).trans List.filter_sublist).cons_cons name
termination_by names.length
decreasing_by exact Nat.lt_succ_of_le (List.length_filter_le _ _)

theorem length_eraseDups_keys_eq_iff {pairs : List (String × α)} :
    (keys pairs).eraseDups.length = (keys pairs).length ↔ Distinct pairs := by
  constructor
  · intro h
    have hnodup := distinct_ofList pairs
    rwa [Distinct, keys_ofList, (eraseDups_sublist _).eq_of_length h] at hnodup
  · intro h
    rw [← keys_ofList, ofList_of_distinct h]

/-! ### Erasing a key -/

theorem erase_sublist (key : String) (pairs : List (String × α)) :
    (erase key pairs).Sublist pairs := List.eraseP_sublist

theorem Distinct.erase {pairs : List (String × α)} (h : Distinct pairs) (key : String) :
    Distinct (erase key pairs) := h.sublist ((erase_sublist key pairs).map _)

theorem erase_of_notMem {key : String} {pairs : List (String × α)} (h : key ∉ keys pairs) :
    Keyed.erase key pairs = pairs := by
  refine List.eraseP_of_forall_not fun pair hpair hkey => h ?_
  exact beq_iff_eq.1 hkey ▸ List.mem_map_of_mem hpair

theorem lookup_erase_of_ne {key other : String} (h : other ≠ key) (pairs : List (String × α)) :
    (erase key pairs).lookup other = pairs.lookup other := by
  induction pairs with
  | nil => rfl
  | cons pair rest ih =>
    obtain ⟨k, v⟩ := pair
    by_cases hk : k = key
    · subst hk
      have hbeq : (other == k) = false := by simpa using h
      simp [Keyed.erase, List.lookup_cons, hbeq]
    · have herase : Keyed.erase key ((k, v) :: rest) = (k, v) :: Keyed.erase key rest := by
        simp [Keyed.erase, hk]
      rw [herase, List.lookup_cons, List.lookup_cons, ih]

/-- With distinct keys, nothing is left under a key that is erased. -/
theorem lookup_erase_self {pairs : List (String × α)} (h : Distinct pairs) (key : String) :
    (erase key pairs).lookup key = none := by
  induction pairs with
  | nil => rfl
  | cons pair rest ih =>
    obtain ⟨k, v⟩ := pair
    obtain ⟨hk, hrest⟩ := List.nodup_cons.1 h
    by_cases hkey : k = key
    · subst hkey
      have herase : Keyed.erase k ((k, v) :: rest) = rest := by simp [Keyed.erase]
      rw [herase]
      exact lookup_eq_none_iff.2 hk
    · have herase : Keyed.erase key ((k, v) :: rest) = (k, v) :: Keyed.erase key rest := by
        simp [Keyed.erase, hkey]
      have hbeq : (key == k) = false := by simpa using Ne.symm hkey
      rw [herase, List.lookup_cons, hbeq, ih hrest]

/-! ### Choosing keys and changing all values -/

theorem lookup_filter {p : String → Bool} {key : String} (h : p key = true)
    (pairs : List (String × α)) : (pairs.filter fun pair => p pair.1).lookup key = pairs.lookup key := by
  induction pairs with
  | nil => rfl
  | cons pair rest ih =>
    obtain ⟨k, v⟩ := pair
    by_cases hk : key = k
    · subst hk
      simp [h]
    · have hbeq : (key == k) = false := by simpa using hk
      rw [List.filter_cons, List.lookup_cons, hbeq]
      split
      · rw [List.lookup_cons, hbeq, ih]
      · exact ih

/-- The order of distinct keys does not matter. -/
theorem lookup_of_perm {pairs others : List (String × α)} (h : pairs.Perm others)
    (hdistinct : Distinct pairs) (key : String) : pairs.lookup key = others.lookup key := by
  have hothers : Distinct others := (h.map Prod.fst).nodup_iff.1 hdistinct
  cases hlookup : others.lookup key with
  | some value => exact lookup_of_mem hdistinct (h.mem_iff.2 (mem_of_lookup hlookup))
  | none =>
    rw [lookup_eq_none_iff] at hlookup ⊢
    exact fun hmem => hlookup ((h.map Prod.fst).mem_iff.1 hmem)

/-- What a key holds after every value is changed. -/
theorem lookup_map_value {β : Type} (f : String → α → β) (key : String)
    (pairs : List (String × α)) :
    (pairs.map fun (k, v) => (k, f k v)).lookup key = (pairs.lookup key).map (f key) := by
  induction pairs with
  | nil => rfl
  | cons pair rest ih =>
    obtain ⟨k, v⟩ := pair
    simp only [List.map_cons, List.lookup_cons]
    by_cases h : key = k
    · subst h
      simp
    · have hbeq : (key == k) = false := by simpa using h
      rw [hbeq, ih]

/-! ### Changing the value of one key -/

/-- Putting the value of a key under it again changes nothing. -/
theorem put_of_lookup {key : String} {value : α} {pairs : List (String × α)}
    (h : pairs.lookup key = some value) : put key value pairs = pairs := by
  induction pairs with
  | nil => cases h
  | cons pair rest ih =>
    obtain ⟨k, v⟩ := pair
    by_cases hk : k = key
    · subst hk
      obtain rfl : v = value := by simpa using h
      simp [put, adjust]
    · have hbeq : (key == k) = false := by simpa using Ne.symm hk
      rw [List.lookup_cons, hbeq] at h
      rw [put, adjust, if_neg hk]
      exact congrArg _ (ih h)

/-- With distinct keys, the pair of a key is changed or dropped by going through all pairs. -/
theorem filterMap_change {pairs : List (String × α)} (h : Distinct pairs) (key : String)
    (change : α → Option α) :
    (pairs.filterMap fun pair =>
        if pair.1 = key then (change pair.2).map fun new => (pair.1, new) else some pair) =
      match pairs.lookup key with
      | none => pairs
      | some value =>
        match change value with
        | some new => put key new pairs
        | none => Keyed.erase key pairs := by
  induction pairs with
  | nil => rfl
  | cons pair rest ih =>
    obtain ⟨k, v⟩ := pair
    obtain ⟨hk, hrest⟩ := List.nodup_cons.1 h
    have ih := ih hrest
    by_cases hkey : k = key
    · subst hkey
      have hnone : rest.lookup k = none := lookup_eq_none_iff.2 hk
      rw [hnone] at ih
      rw [List.filterMap_cons, if_pos rfl, ih, List.lookup_cons_self]
      cases hchange : change v <;> simp [put, adjust, Keyed.erase, hchange]
    · have hbeq : (key == k) = false := by simpa using Ne.symm hkey
      rw [List.filterMap_cons, if_neg hkey, ih, List.lookup_cons, hbeq]
      cases rest.lookup key with
      | none => rfl
      | some value =>
        dsimp only
        cases change value <;> simp [put, adjust, Keyed.erase, hkey]

/-! ### The first pair of a key -/

section Split

variable {key : String} {before pairs : List (String × α)} {value : α}

theorem exists_split_of_lookup (h : pairs.lookup key = some value) :
    ∃ before after, key ∉ keys before ∧ pairs = before ++ (key, value) :: after := by
  obtain ⟨before, after, rfl, hbefore⟩ := List.lookup_eq_some_iff.1 h
  refine ⟨before, after, fun hmem => ?_, rfl⟩
  obtain ⟨pair, hpair, rfl⟩ := List.mem_map.1 hmem
  simpa using hbefore pair hpair

theorem lookup_split (hkey : key ∉ keys before) (value : α) (after : List (String × α)) :
    (before ++ (key, value) :: after).lookup key = some value := by
  refine List.lookup_eq_some_iff.2 ⟨before, after, rfl, fun pair hpair => ?_⟩
  have hne : key ≠ pair.1 := fun e => hkey (e ▸ List.mem_map_of_mem hpair)
  simpa using hne

theorem put_split (hkey : key ∉ keys before) (value new : α) (after : List (String × α)) :
    put key new (before ++ (key, value) :: after) = before ++ (key, new) :: after := by
  induction before with
  | nil => simp [put, adjust]
  | cons pair rest ih =>
    have hne : pair.1 ≠ key := fun e => hkey (by simp [keys, e])
    have hrest : key ∉ keys rest := fun h => hkey (List.mem_cons_of_mem _ h)
    rw [List.cons_append, put, adjust, if_neg hne]
    exact congrArg (pair :: ·) (ih hrest)

theorem erase_split (hkey : key ∉ keys before) (value : α) (after : List (String × α)) :
    Keyed.erase key (before ++ (key, value) :: after) = before ++ after := by
  have hbefore : ∀ pair ∈ before, ¬(pair.1 == key) = true := fun pair hpair heq =>
    hkey (beq_iff_eq.1 heq ▸ List.mem_map_of_mem hpair)
  rw [Keyed.erase, List.eraseP_append_right _ hbefore]
  simp

/-- After a value is put under a key, a property holds of all pairs if it holds of the new one and of those
with other keys. -/
theorem forall_mem_put_iff {Q : String × α → Prop} (h : Distinct pairs) :
    (∀ pair ∈ put key value pairs, Q pair) ↔
      Q (key, value) ∧ ∀ pair ∈ pairs, pair.1 ≠ key → Q pair := by
  have hself : (key, value) ∈ put key value pairs := self_mem_adjust key _ pairs
  constructor
  · refine fun hput => ⟨hput _ hself, fun pair hpair hne => hput pair ?_⟩
    exact (mem_adjust_of_mem hpair).resolve_right fun h => hne h.1
  · rintro ⟨hnew, hothers⟩ pair hpair
    by_cases hkey : pair.1 = key
    · -- the keys stay distinct, so this is the new pair
      obtain ⟨k, v⟩ := pair
      obtain rfl : k = key := hkey
      have hlookup : (put k value pairs).lookup k = some v := lookup_of_mem (h.adjust k _) hpair
      obtain rfl : value = v :=
        Option.some.inj ((lookup_adjust_self k (fun _ => value) pairs).symm.trans hlookup)
      exact hnew
    · refine hothers pair ((mem_adjust hpair).resolve_right ?_) hkey
      rintro rfl
      exact hkey rfl

end Split

end DocQuery.Keyed
