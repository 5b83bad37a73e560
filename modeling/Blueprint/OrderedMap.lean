/-!
# Maps that keep the order of their keys

Properties, links and terms are shown in the order in which their keys were first written. Writing
a key again changes its value and keeps its place. The keys are distinct by construction.
-/

namespace Blueprint

/-- Entries with distinct keys, in the order in which the keys were first written. -/
structure OrderedMap (κ ν : Type) where
  /-- The entries, oldest first. -/
  entries : List (κ × ν)
  /-- No key stands twice. -/
  keys_nodup : (entries.map Prod.fst).Nodup

namespace OrderedMap

variable {κ ν : Type}

/-- The map without entries. -/
def empty : OrderedMap κ ν := ⟨[], List.nodup_nil⟩

instance : Inhabited (OrderedMap κ ν) := ⟨empty⟩

/-- Two maps with the same entries are the same. -/
@[ext] theorem ext {m n : OrderedMap κ ν} (h : m.entries = n.entries) : m = n := by
  cases m; cases n; simp_all

instance [DecidableEq κ] [DecidableEq ν] : DecidableEq (OrderedMap κ ν) := fun m n =>
  if h : m.entries = n.entries then isTrue (ext h) else isFalse fun e => h (e ▸ rfl)

instance [Repr κ] [Repr ν] : Repr (OrderedMap κ ν) := ⟨fun m prec => reprPrec m.entries prec⟩

/-- The keys in order. -/
def keys (m : OrderedMap κ ν) : List κ := m.entries.map Prod.fst

/-- The values in the order of their keys. -/
def values (m : OrderedMap κ ν) : List ν := m.entries.map Prod.snd

variable [DecidableEq κ]

/-- The value of a key. -/
def get? (m : OrderedMap κ ν) (key : κ) : Option ν :=
  (m.entries.find? fun entry => entry.1 = key).map Prod.snd

/-- Whether a key has a value. -/
def contains (m : OrderedMap κ ν) (key : κ) : Bool := (m.get? key).isSome

/-- Writes a value among entries: in place of the old one, or at the end. -/
def insertEntry (key : κ) (value : ν) : List (κ × ν) → List (κ × ν)
  | [] => [(key, value)]
  | entry :: rest =>
    if entry.1 = key then (key, value) :: rest else entry :: insertEntry key value rest

/-- Writing adds a new key at the end and leaves the keys alone otherwise. -/
theorem insertEntry_keys (key : κ) (value : ν) (entries : List (κ × ν)) :
    (insertEntry key value entries).map Prod.fst =
      if key ∈ entries.map Prod.fst then entries.map Prod.fst
      else entries.map Prod.fst ++ [key] := by
  induction entries with
  | nil => simp [insertEntry]
  | cons entry rest ih =>
    by_cases h : entry.1 = key
    · simp [insertEntry, h]
    · have h' : ¬ key = entry.1 := fun e => h e.symm
      simp only [insertEntry, h, if_false, List.map_cons, List.mem_cons, h', false_or, ih]
      split <;> simp

/-- Writes the value of a key. -/
def insert (m : OrderedMap κ ν) (key : κ) (value : ν) : OrderedMap κ ν where
  entries := insertEntry key value m.entries
  keys_nodup := by
    rw [insertEntry_keys]
    split
    · exact m.keys_nodup
    · rename_i absent
      refine List.nodup_append.mpr ⟨m.keys_nodup, by simp, ?_⟩
      intro a ha b hb e
      simp only [List.mem_singleton] at hb
      exact absent (hb ▸ e ▸ ha)

/-- Removes a key. -/
def erase (m : OrderedMap κ ν) (key : κ) : OrderedMap κ ν where
  entries := m.entries.filter fun entry => !decide (entry.1 = key)
  keys_nodup :=
    List.Sublist.nodup (List.Sublist.map Prod.fst List.filter_sublist) m.keys_nodup

/-- Writes all entries of a list, one after the other. -/
def insertAll (m : OrderedMap κ ν) (entries : List (κ × ν)) : OrderedMap κ ν :=
  entries.foldl (fun map entry => map.insert entry.1 entry.2) m

/-- The map with the entries of a list; of two entries with one key the later value counts. -/
def ofList (entries : List (κ × ν)) : OrderedMap κ ν := empty.insertAll entries

/-- Changes the value of a key that has one. -/
def modify (m : OrderedMap κ ν) (key : κ) (f : ν → ν) : OrderedMap κ ν :=
  match m.get? key with
  | some value => m.insert key (f value)
  | none => m

/-- What was written is read back; other keys keep their values. -/
theorem get?_insert (m : OrderedMap κ ν) (key other : κ) (value : ν) :
    (m.insert key value).get? other = if key = other then some value else m.get? other := by
  obtain ⟨entries, nodup⟩ := m
  simp only [get?, insert]
  clear nodup
  induction entries with
  | nil => by_cases h : key = other <;> simp [insertEntry, h]
  | cons entry rest ih =>
    by_cases same : entry.1 = key
    · by_cases h : key = other <;> simp [insertEntry, same, h]
    · by_cases h : entry.1 = other
      · have ne : ¬ key = other := fun e => same (h.trans e.symm)
        have ne' : ¬ other = key := fun e => ne e.symm
        simp [insertEntry, h, ne, ne']
      · simp only [insertEntry, same, if_false, List.find?_cons, h, decide_false] at ih ⊢
        exact ih

end OrderedMap

end Blueprint
