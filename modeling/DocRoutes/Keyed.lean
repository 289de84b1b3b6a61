/-!
# Entries in key order

A dictionary is a list of entries in strictly increasing key order, so that two dictionaries with
the same entries are equal and every listing of one comes out sorted. Keys are ordered by code
points, which is also the order of their UTF-8 bytes.

Main results: what `get?` finds after an insertion (`get?_insert`, `Dict.get?_insert`) and after a
merge (`Dict.get?_merge`), and that insertion keeps the order (`Ordered.insert`).
-/

namespace DocRoutes

/-! ## Lists of entries -/

namespace Keyed

variable {α : Type}

def get? (key : String) (entries : List (String × α)) : Option α :=
  (entries.find? (·.1 == key)).map (·.2)

/-- Put a value under a key: in place of the value there, or before the first greater key. -/
def insert (key : String) (value : α) : List (String × α) → List (String × α)
  | [] => [(key, value)]
  | (k, v) :: rest =>
    if key = k then (key, value) :: rest
    else if key < k then (key, value) :: (k, v) :: rest
    else (k, v) :: insert key value rest

/-- The entries of `other` go into `entries` one after the other; a later value replaces an
earlier one under the same key. -/
def insertAll (entries other : List (String × α)) : List (String × α) :=
  other.foldl (fun acc e => insert e.1 e.2 acc) entries

def Ordered (entries : List (String × α)) : Prop :=
  entries.Pairwise (fun a b => a.1 < b.1)

theorem get?_insert (key other : String) (value : α) (entries : List (String × α)) :
    get? other (insert key value entries) = if key = other then some value else get? other entries := by
  induction entries with
  | nil => by_cases h : key = other <;> simp [insert, get?, h]
  | cons e rest ih =>
    obtain ⟨k, v⟩ := e
    simp only [insert]
    split
    · next hk =>
      subst hk
      by_cases h : key = other <;> simp [get?, h]
    split
    · by_cases h : key = other <;> simp [get?, h]
    · next hk _ =>
      by_cases ho : k = other
      · have : key ≠ other := fun h => hk (h.trans ho.symm)
        simp [get?, ho, this]
      · simpa [get?, ho] using ih

theorem mem_keys_insert {key k : String} {value v : α} {entries : List (String × α)}
    (h : (k, v) ∈ insert key value entries) : k = key ∨ ∃ w, (k, w) ∈ entries := by
  induction entries with
  | nil => simp [insert] at h; exact .inl h.1
  | cons e rest ih =>
    obtain ⟨k', v'⟩ := e
    simp only [insert] at h
    split at h
    · rcases List.mem_cons.1 h with h | h
      · exact .inl (congrArg Prod.fst h)
      · exact .inr ⟨v, List.mem_cons_of_mem _ h⟩
    split at h
    · rcases List.mem_cons.1 h with h | h
      · exact .inl (congrArg Prod.fst h)
      · exact .inr ⟨v, h⟩
    · rcases List.mem_cons.1 h with h | h
      · exact .inr ⟨v, by simp [h]⟩
      · rcases ih h with h | ⟨w, h⟩
        · exact .inl h
        · exact .inr ⟨w, List.mem_cons_of_mem _ h⟩

theorem Ordered.insert {entries : List (String × α)} (h : Ordered entries) (key : String)
    (value : α) : Ordered (insert key value entries) := by
  induction entries with
  | nil => simp [Keyed.insert, Ordered]
  | cons e rest ih =>
    obtain ⟨k, v⟩ := e
    obtain ⟨hk, hr⟩ := List.pairwise_cons.1 h
    simp only [Keyed.insert]
    split
    · next heq => subst heq; exact List.pairwise_cons.2 ⟨hk, hr⟩
    split
    · next hlt =>
      refine List.pairwise_cons.2 ⟨fun a ha => ?_, h⟩
      rcases List.mem_cons.1 ha with rfl | ha
      · exact hlt
      · exact String.lt_trans hlt (hk a ha)
    · next hne hnlt =>
      refine List.pairwise_cons.2 ⟨fun a ha => ?_, ih hr⟩
      have hgt : k < key := by
        false_or_by_contra
        next h => exact hne (String.le_antisymm (String.not_lt.1 h) (String.not_lt.1 hnlt))
      rcases mem_keys_insert (k := a.1) (v := a.2) ha with h | ⟨w, hw⟩
      · rw [h]; exact hgt
      · exact hk (a.1, w) hw

theorem Ordered.insertAll {entries : List (String × α)} (h : Ordered entries)
    (other : List (String × α)) : Ordered (insertAll entries other) := by
  induction other generalizing entries with
  | nil => exact h
  | cons e rest ih => exact ih (h.insert e.1 e.2)

theorem get?_cons (key : String) (e : String × α) (rest : List (String × α)) :
    get? key (e :: rest) = if e.1 = key then some e.2 else get? key rest := by
  by_cases h : e.1 = key <;> simp [get?, h]

theorem get?_eq_none_of_forall_ne {key : String} {entries : List (String × α)}
    (h : ∀ e ∈ entries, e.1 ≠ key) : get? key entries = none := by
  simpa [get?] using h

theorem get?_map {β : Type} (f : α → β) (key : String) (entries : List (String × α)) :
    get? key (entries.map fun e => (e.1, f e.2)) = (get? key entries).map f := by
  induction entries with
  | nil => rfl
  | cons e rest ih =>
    rw [List.map_cons, get?_cons, get?_cons, ih]
    split <;> rfl

/-- Of two values under one key, the one inserted later is found. -/
theorem get?_insertAll {other : List (String × α)} (h : other.Pairwise fun a b => a.1 ≠ b.1)
    (key : String) (entries : List (String × α)) :
    get? key (insertAll entries other) = (get? key other).or (get? key entries) := by
  induction other generalizing entries with
  | nil => rfl
  | cons e rest ih =>
    obtain ⟨hfirst, hrest⟩ := List.pairwise_cons.1 h
    have hstep := ih hrest (insert e.1 e.2 entries)
    rw [get?_insert] at hstep
    rw [insertAll, List.foldl_cons, ← insertAll, hstep, get?_cons]
    by_cases hkey : e.1 = key
    · have hnone : get? key rest = none := by
        apply get?_eq_none_of_forall_ne
        intro e' he'
        exact hkey ▸ (hfirst e' he').symm
      simp [hkey, hnone]
    · simp [hkey]

/-- A search from the end finds the last value. -/
theorem findSome?_reverse_eq_some_iff {β γ : Type} {f : β → Option γ} {l : List β} {c : γ} :
    l.reverse.findSome? f = some c ↔ ∃ before b after, l = before ++ b :: after ∧ f b = some c ∧
      ∀ later ∈ after, f later = none := by
  rw [List.findSome?_eq_some_iff]
  constructor
  · rintro ⟨after, b, before, hl, hb, hafter⟩
    refine ⟨before.reverse, b, after.reverse, ?_, hb, ?_⟩
    · rw [List.reverse_eq_iff.1 hl]
      simp
    · intro later hlater
      exact hafter later (List.mem_reverse.1 hlater)
  · rintro ⟨before, b, after, rfl, hb, hafter⟩
    refine ⟨after.reverse, b, before.reverse, by simp, hb, ?_⟩
    intro later hlater
    exact hafter later (List.mem_reverse.1 hlater)

/-- Of several values under one key, the last one is found. -/
theorem get?_insertAll_eq_or (key : String) (entries other : List (String × α)) :
    get? key (insertAll entries other) =
      (other.reverse.findSome? fun e => if e.1 = key then some e.2 else none).or
        (get? key entries) := by
  induction other generalizing entries with
  | nil => rfl
  | cons e rest ih =>
    have hstep := ih (insert e.1 e.2 entries)
    rw [get?_insert] at hstep
    rw [insertAll, List.foldl_cons, ← insertAll, hstep, List.reverse_cons, List.findSome?_append,
      Option.or_assoc]
    by_cases hkey : e.1 = key <;> simp [hkey]

theorem Ordered.distinct {entries : List (String × α)} (h : Ordered entries) :
    entries.Pairwise fun a b => a.1 ≠ b.1 :=
  List.Pairwise.imp String.ne_of_lt h

end Keyed

/-! ## Dictionaries -/

structure Dict (α : Type) where
  entries : List (String × α)
  ordered : Keyed.Ordered entries

namespace Dict

variable {α : Type}

def empty : Dict α := ⟨[], List.Pairwise.nil⟩

instance : EmptyCollection (Dict α) := ⟨empty⟩

instance : Inhabited (Dict α) := ⟨empty⟩

def get? (d : Dict α) (key : String) : Option α := Keyed.get? key d.entries

def insert (d : Dict α) (key : String) (value : α) : Dict α :=
  ⟨Keyed.insert key value d.entries, d.ordered.insert key value⟩

/-- The entries of `other` win. -/
def merge (d other : Dict α) : Dict α :=
  ⟨Keyed.insertAll d.entries other.entries, d.ordered.insertAll other.entries⟩

def ofList (entries : List (String × α)) : Dict α :=
  entries.foldl (fun d e => d.insert e.1 e.2) empty

def keys (d : Dict α) : List String := d.entries.map (·.1)

def size (d : Dict α) : Nat := d.entries.length

def isEmpty (d : Dict α) : Bool := d.entries.isEmpty

def map {β : Type} (f : α → β) (d : Dict α) : Dict β :=
  ⟨d.entries.map fun e => (e.1, f e.2), by
    have h := d.ordered
    simpa [Keyed.Ordered, List.pairwise_map] using h⟩

@[simp] theorem get?_empty (key : String) : (empty : Dict α).get? key = none := rfl

@[simp] theorem get?_insert (d : Dict α) (key other : String) (value : α) :
    (d.insert key value).get? other = if key = other then some value else d.get? other :=
  Keyed.get?_insert key other value d.entries

@[simp] theorem get?_merge (d other : Dict α) (key : String) :
    (d.merge other).get? key = (other.get? key).or (d.get? key) :=
  Keyed.get?_insertAll other.ordered.distinct key d.entries

end Dict

end DocRoutes
