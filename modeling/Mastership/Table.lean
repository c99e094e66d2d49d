namespace Mastership

/-- A strict linear order that can be decided, which is what a table asks of its keys. -/
class Key (κ : Type) extends LT κ where
  decEq : DecidableEq κ
  decLt : ∀ a b : κ, Decidable (a < b)
  irrefl : ∀ a : κ, ¬ a < a
  trans : ∀ {a b c : κ}, a < b → b < c → a < c
  tri : ∀ {a b : κ}, ¬ a < b → ¬ b < a → a = b

instance (priority := low) Key.toDecidableEq {κ : Type} [Key κ] : DecidableEq κ := Key.decEq

instance (priority := low) Key.toDecidableLT {κ : Type} [Key κ] (a b : κ) : Decidable (a < b) :=
  Key.decLt a b

theorem Key.ne_of_lt {κ : Type} [Key κ] {a b : κ} (h : a < b) : a ≠ b :=
  fun e => Key.irrefl b (e ▸ h)

instance : Key Nat where
  decEq := inferInstance
  decLt := inferInstance
  irrefl := Nat.lt_irrefl
  trans := Nat.lt_trans
  tri h₁ h₂ := Nat.le_antisymm (Nat.le_of_not_lt h₂) (Nat.le_of_not_lt h₁)

instance : Key String where
  decEq := inferInstance
  decLt := inferInstance
  irrefl := String.lt_irrefl
  trans := String.lt_trans
  tri h₁ h₂ := String.le_antisymm (String.not_lt.mp h₂) (String.not_lt.mp h₁)

namespace Table.Entries

variable {κ β γ : Type} [Key κ]

def get? (k : κ) : List (κ × β) → Option β
  | [] => none
  | (k', v) :: rest => if k' = k then some v else get? k rest

/-- Writes an entry at its place, in one pass. -/
def insert (k : κ) (v : β) : List (κ × β) → List (κ × β)
  | [] => [(k, v)]
  | (k', v') :: rest =>
    if k < k' then (k, v) :: (k', v') :: rest
    else if k' < k then (k', v') :: insert k v rest
    else (k, v) :: rest

def erase (k : κ) (es : List (κ × β)) : List (κ × β) :=
  es.filter (fun e => decide (e.1 ≠ k))

def Sorted (es : List (κ × β)) : Prop :=
  es.Pairwise (fun a b => a.1 < b.1)

theorem mem_insert {k : κ} {v : β} {e : κ × β} {es : List (κ × β)}
    (h : e ∈ insert k v es) : e = (k, v) ∨ e ∈ es := by
  induction es with
  | nil => simpa [insert] using h
  | cons hd tl ih =>
    obtain ⟨k', v'⟩ := hd
    rw [insert] at h
    split at h
    · simpa using h
    · split at h
      · rcases List.mem_cons.mp h with h | h
        · exact .inr (h ▸ List.mem_cons_self)
        · exact (ih h).imp id (List.mem_cons_of_mem _)
      · exact (List.mem_cons.mp h).imp id (List.mem_cons_of_mem _)

theorem Sorted.insert {es : List (κ × β)} (h : Sorted es) (k : κ) (v : β) :
    Sorted (insert k v es) := by
  induction es with
  | nil => simp [Entries.insert, Sorted]
  | cons hd tl ih =>
    obtain ⟨k', v'⟩ := hd
    obtain ⟨hhd, htl⟩ := List.pairwise_cons.mp h
    rw [Entries.insert]
    split
    · next hlt =>
      refine List.pairwise_cons.mpr ⟨fun e he => ?_, h⟩
      rcases List.mem_cons.mp he with rfl | he
      · exact hlt
      · exact Key.trans hlt (hhd e he)
    · split
      · next hgt =>
        refine List.pairwise_cons.mpr ⟨fun e he => ?_, ih htl⟩
        rcases mem_insert he with rfl | he
        · exact hgt
        · exact hhd e he
      · next h₁ h₂ =>
        obtain rfl := Key.tri h₁ h₂
        exact List.pairwise_cons.mpr ⟨hhd, htl⟩

theorem Sorted.erase {es : List (κ × β)} (h : Sorted es) (k : κ) : Sorted (erase k es) :=
  List.Pairwise.filter _ h

theorem get?_insert (k k' : κ) (v : β) (es : List (κ × β)) :
    get? k' (insert k v es) = if k = k' then some v else get? k' es := by
  induction es with
  | nil => simp [insert, get?]
  | cons hd tl ih =>
    obtain ⟨k₁, v₁⟩ := hd
    rw [insert]
    split
    · simp [get?]
    · split
      · next h =>
        by_cases h₁ : k₁ = k'
        · subst h₁
          simp [get?, (Key.ne_of_lt h).symm]
        · simp [get?, h₁, ih]
      · next h₁ h₂ =>
        obtain rfl := Key.tri h₁ h₂
        by_cases h₃ : k = k' <;> simp [get?, h₃]

theorem length_insert {k : κ} {es : List (κ × β)} (h : get? k es = none) (v : β) :
    (insert k v es).length = es.length + 1 := by
  induction es with
  | nil => rfl
  | cons hd tl ih =>
    obtain ⟨k', v'⟩ := hd
    rw [get?] at h
    split at h
    · cases h
    · next hk =>
      rw [insert]
      split
      · rfl
      · split
        · simp [ih h]
        · next h₁ h₂ => exact absurd (Key.tri h₁ h₂).symm hk

theorem get?_erase (k k' : κ) (es : List (κ × β)) :
    get? k' (erase k es) = if k = k' then none else get? k' es := by
  induction es with
  | nil => simp [erase, get?]
  | cons hd tl ih =>
    obtain ⟨k₁, v₁⟩ := hd
    rw [erase, List.filter_cons]
    by_cases h : k₁ = k
    · subst h
      by_cases h' : k₁ = k' <;> simp_all [erase, get?]
    · by_cases h' : k₁ = k'
      · subst h'
        simp [get?, h, Ne.symm h]
      · simpa [get?, h, h', erase] using ih

theorem get?_map (f : β → γ) (k : κ) (es : List (κ × β)) :
    get? k (es.map fun e => (e.1, f e.2)) = (get? k es).map f := by
  induction es with
  | nil => rfl
  | cons hd tl ih =>
    obtain ⟨k', v⟩ := hd
    by_cases h : k' = k <;> simp [get?, h, ih]

theorem Sorted.map {es : List (κ × β)} (h : Sorted es) (f : β → γ) :
    Sorted (es.map fun e => (e.1, f e.2)) :=
  List.pairwise_map.mpr h

theorem Sorted.get?_eq_some_iff {es : List (κ × β)} (h : Sorted es) {k : κ} {v : β} :
    get? k es = some v ↔ (k, v) ∈ es := by
  induction es with
  | nil => simp [get?]
  | cons hd tl ih =>
    obtain ⟨k', v'⟩ := hd
    obtain ⟨hhd, htl⟩ := List.pairwise_cons.mp h
    replace hhd : ∀ e ∈ tl, k' < e.1 := hhd
    by_cases hk : k' = k
    · subst hk
      have : (k', v) ∉ tl := fun hm => Key.irrefl k' (hhd (k', v) hm)
      simp [get?, this, eq_comm]
    · simp [get?, hk, ih htl, Ne.symm hk]

theorem Sorted.eq_of_get? {es fs : List (κ × β)} (he : Sorted es) (hf : Sorted fs)
    (h : ∀ k, get? k es = get? k fs) : es = fs := by
  induction es generalizing fs with
  | nil =>
    cases fs with
    | nil => rfl
    | cons f _ => have := h f.1; simp [get?] at this
  | cons e tl ih =>
    cases fs with
    | nil => have := h e.1; simp [get?] at this
    | cons f fl =>
      obtain ⟨hhd, htl⟩ := List.pairwise_cons.mp he
      obtain ⟨hhd', hfl⟩ := List.pairwise_cons.mp hf
      have hef : e ∈ f :: fl := by
        rw [← hf.get?_eq_some_iff, ← h]; simp [get?]
      have hfe : f ∈ e :: tl := by
        rw [← he.get?_eq_some_iff, h]; simp [get?]
      have hx : e = f := by
        rcases List.mem_cons.mp hef with hx | hx
        · exact hx
        · rcases List.mem_cons.mp hfe with hy | hy
          · exact hy.symm
          · exact absurd (Key.trans (hhd _ hy) (hhd' _ hx)) (Key.irrefl _)
      subst hx
      refine congrArg (e :: ·) (ih htl hfl fun k => ?_)
      by_cases hk : e.1 = k
      · subst hk
        have hn : ∀ l : List (κ × β), Sorted l → (∀ x ∈ l, e.1 < x.1) → get? e.1 l = none := by
          intro l hl hlt
          cases hg : get? e.1 l with
          | none => rfl
          | some v => exact absurd (hlt _ (hl.get?_eq_some_iff.mp hg)) (Key.irrefl _)
        rw [hn _ htl hhd, hn _ hfl hhd']
      · simpa [get?, hk] using h k

end Table.Entries

/-- A finite map from `κ` to `β`, kept in ascending key order. The order is part of the type, so two
tables that answer every look-up alike are equal (`Table.ext`), whatever the writes that built them. -/
structure Table (κ β : Type) [Key κ] where
  entries : List (κ × β)
  sorted : Table.Entries.Sorted entries

namespace Table

variable {κ β γ : Type} [Key κ]

instance [DecidableEq β] : DecidableEq (Table κ β) := fun a b =>
  decidable_of_iff (a.entries = b.entries) (by cases a; cases b; simp)

instance [Repr κ] [Repr β] : Repr (Table κ β) where
  reprPrec t n := reprPrec t.entries n

def empty : Table κ β := ⟨[], List.Pairwise.nil⟩

instance : EmptyCollection (Table κ β) := ⟨empty⟩

instance : Inhabited (Table κ β) := ⟨empty⟩

def get? (t : Table κ β) (k : κ) : Option β := Entries.get? k t.entries

/-- Writes a value under a key, in place of any value that was there. -/
def insert (t : Table κ β) (k : κ) (v : β) : Table κ β :=
  ⟨Entries.insert k v t.entries, t.sorted.insert k v⟩

def erase (t : Table κ β) (k : κ) : Table κ β :=
  ⟨Entries.erase k t.entries, t.sorted.erase k⟩

/-- The same keys, with values made of those that are there. -/
def map (f : β → γ) (t : Table κ β) : Table κ γ :=
  ⟨t.entries.map fun e => (e.1, f e.2), t.sorted.map f⟩

def contains (t : Table κ β) (k : κ) : Bool := (t.get? k).isSome

def size (t : Table κ β) : Nat := t.entries.length

def keys (t : Table κ β) : List κ := t.entries.map Prod.fst

def values (t : Table κ β) : List β := t.entries.map Prod.snd

/-- Later entries win over earlier ones with the same key. -/
def ofList (es : List (κ × β)) : Table κ β :=
  es.foldl (fun t e => t.insert e.1 e.2) empty

@[simp] theorem get?_empty (k : κ) : (empty : Table κ β).get? k = none := rfl

@[simp] theorem get?_emptyCollection (k : κ) : (∅ : Table κ β).get? k = none := rfl

theorem get?_insert (t : Table κ β) (k k' : κ) (v : β) :
    (t.insert k v).get? k' = if k = k' then some v else t.get? k' :=
  Entries.get?_insert k k' v t.entries

@[simp] theorem get?_insert_self (t : Table κ β) (k : κ) (v : β) :
    (t.insert k v).get? k = some v := by simp [get?_insert]

theorem get?_insert_of_ne (t : Table κ β) {k k' : κ} (v : β) (h : k ≠ k') :
    (t.insert k v).get? k' = t.get? k' := by simp [get?_insert, h]

theorem size_insert (t : Table κ β) {k : κ} (h : t.get? k = none) (v : β) :
    (t.insert k v).size = t.size + 1 :=
  Entries.length_insert h v

theorem get?_erase (t : Table κ β) (k k' : κ) :
    (t.erase k).get? k' = if k = k' then none else t.get? k' :=
  Entries.get?_erase k k' t.entries

@[simp] theorem get?_erase_self (t : Table κ β) (k : κ) : (t.erase k).get? k = none := by
  simp [get?_erase]

theorem get?_erase_of_ne (t : Table κ β) {k k' : κ} (h : k ≠ k') :
    (t.erase k).get? k' = t.get? k' := by simp [get?_erase, h]

@[simp] theorem get?_map (f : β → γ) (t : Table κ β) (k : κ) :
    (t.map f).get? k = (t.get? k).map f :=
  Entries.get?_map f k t.entries

theorem mem_entries {t : Table κ β} {k : κ} {v : β} :
    (k, v) ∈ t.entries ↔ t.get? k = some v :=
  t.sorted.get?_eq_some_iff.symm

/-- Look-ups determine a table. -/
theorem ext {s t : Table κ β} (h : ∀ k, s.get? k = t.get? k) : s = t := by
  obtain ⟨es, hs⟩ := s
  obtain ⟨fs, ht⟩ := t
  have : es = fs := hs.eq_of_get? ht h
  subst this
  rfl

/-- A write that repeats what the table holds changes nothing. -/
theorem insert_eq_self {t : Table κ β} {k : κ} {v : β} (h : t.get? k = some v) :
    t.insert k v = t := by
  refine ext fun k' => ?_
  rw [get?_insert]
  split
  · next hk => exact hk ▸ h.symm
  · rfl

/-- Of two writes under one key the last one counts. -/
theorem insert_insert (t : Table κ β) (k : κ) (v v' : β) :
    (t.insert k v).insert k v' = t.insert k v' := by
  refine ext fun k' => ?_
  by_cases hk : k = k' <;> simp [get?_insert, hk]

theorem map_insert (f : β → γ) (t : Table κ β) (k : κ) (v : β) :
    (t.insert k v).map f = (t.map f).insert k (f v) := by
  refine ext fun k' => ?_
  by_cases hk : k = k' <;> simp [get?_insert, hk]

theorem map_erase (f : β → γ) (t : Table κ β) (k : κ) : (t.erase k).map f = (t.map f).erase k := by
  refine ext fun k' => ?_
  by_cases hk : k = k' <;> simp [get?_erase, hk]

theorem keys_ascending (t : Table κ β) : t.keys.Pairwise (· < ·) := by
  rw [keys, List.pairwise_map]
  exact t.sorted

theorem mem_keys {t : Table κ β} {k : κ} : k ∈ t.keys ↔ (t.get? k).isSome := by
  simp only [keys, List.mem_map, Option.isSome_iff_exists]
  constructor
  · rintro ⟨⟨k', v⟩, hm, rfl⟩
    exact ⟨v, mem_entries.mp hm⟩
  · rintro ⟨v, hv⟩
    exact ⟨(k, v), mem_entries.mpr hv, rfl⟩

theorem mem_values {t : Table κ β} {v : β} : v ∈ t.values ↔ ∃ k, t.get? k = some v := by
  simp only [values, List.mem_map]
  constructor
  · rintro ⟨⟨k, v⟩, hm, rfl⟩
    exact ⟨k, mem_entries.mp hm⟩
  · rintro ⟨k, hv⟩
    exact ⟨(k, v), mem_entries.mpr hv, rfl⟩

end Table
end Mastership
