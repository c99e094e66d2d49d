import Mastership.Data.Forms
import Mastership.Data.Toml

namespace Mastership.Data.Toml

mutual

/-- No table within a node has a key twice. -/
def Node.Tidy : Node → Prop
  | .value _ => True
  | .table _ es => TidyEntries es
  | .tables _ last => TidyEntries last

/-- No table has a key twice. -/
def TidyEntries : List (String × Node) → Prop
  | [] => True
  | (k, n) :: es => es.lookup k = none ∧ n.Tidy ∧ TidyEntries es

end

/-- The value under a dotted key in a table, or that of a node itself. -/
def Node.value? : List String → Node → Option Data
  | [], .value d => some d
  | k :: ks, .table _ es => (es.lookup k).bind (value? ks)
  | _, _ => none

/-- Values are kept, and tables stay tidy. -/
structure Node.Grows (n n' : Node) : Prop where
  keeps : ∀ ks d, n.value? ks = some d → n'.value? ks = some d
  tidy : n.Tidy → n'.Tidy

namespace Entries

def value? (es : Entries) : List String → Option Data
  | [] => none
  | k :: ks => (es.get? k).bind (Node.value? ks)

/-- Values are kept, and tables stay tidy. -/
structure Grows (es es' : Entries) : Prop where
  keeps : ∀ ks d, es.value? ks = some d → es'.value? ks = some d
  tidy : TidyEntries es → TidyEntries es'

variable {es es' sub sub' last last' : Entries} {k : String} {n : Node} {d : Data}

theorem Grows.refl (es : Entries) : es.Grows es := ⟨fun _ _ => id, id⟩

theorem Grows.trans {es'' : Entries} (h : es.Grows es') (h' : es'.Grows es'') : es.Grows es'' :=
  ⟨fun ks d hd => h'.keeps ks d (h.keeps ks d hd), fun ht => h'.tidy (h.tidy ht)⟩

theorem get?_cons (k k' : String) (n : Node) (es : Entries) :
    get? k ((k', n) :: es) = if k = k' then some n else get? k es := by
  rw [get?, List.lookup_cons]
  by_cases h : k = k'
  · simp [h]
  · simp [h, get?, beq_eq_false_iff_ne.mpr h]

theorem get?_set (k k' : String) (n : Node) (es : Entries) :
    get? k' (set k n es) = if k' = k then some n else get? k' es := by
  induction es with
  | nil => exact get?_cons k' k n []
  | cons e es ih =>
    obtain ⟨key, old⟩ := e
    rw [set]
    split
    · next hk =>
      subst hk
      rw [get?_cons, get?_cons]
      split <;> rfl
    · next hk =>
      rw [get?_cons, get?_cons, ih]
      by_cases h : k' = key
      · simp [h, hk]
      · simp [h]

theorem tidy_of_get? (h : TidyEntries es) (hn : es.get? k = some n) : n.Tidy := by
  induction es with
  | nil => cases hn
  | cons e es ih =>
    obtain ⟨k', n'⟩ := e
    obtain ⟨-, hn', hes⟩ := h
    rw [get?_cons] at hn
    split at hn
    · cases hn
      exact hn'
    · exact ih hes hn

theorem tidy_set (h : TidyEntries es) (hn : n.Tidy) (k : String) : TidyEntries (set k n es) := by
  induction es with
  | nil => exact ⟨rfl, hn, trivial⟩
  | cons e es ih =>
    obtain ⟨k', n'⟩ := e
    obtain ⟨hnone, hn', hes⟩ := h
    rw [set]
    split
    · next hk => exact ⟨hk ▸ hnone, hn, hes⟩
    · next hk =>
      refine ⟨?_, hn', ih hes⟩
      exact (get?_set k k' n es).trans ((if_neg hk).trans hnone)

/-- A key may be added, and a node exchanged for one that has its values. -/
theorem grows_set (hnew : es.get? k = none → n.Tidy)
    (hold : ∀ old, es.get? k = some old → old.Grows n) : es.Grows (set k n es) := by
  refine ⟨?_, fun ht => tidy_set ht ?_ k⟩
  · intro ks d hd
    cases ks with
    | nil => cases hd
    | cons k' ks =>
      obtain ⟨old, hget, hvalue⟩ := Option.bind_eq_some_iff.mp hd
      rw [value?, get?_set]
      split
      · next hk => exact (hold old (hk ▸ hget)).keeps ks d hvalue
      · rw [hget]
        exact hvalue
  · cases hget : es.get? k with
    | none => exact hnew hget
    | some old => exact (hold old hget).tidy (tidy_of_get? ht hget)

theorem Grows.table (h : sub.Grows sub') (origin origin' : Origin) :
    (Node.table origin sub).Grows (.table origin' sub') := by
  refine ⟨?_, h.tidy⟩
  intro ks d hd
  cases ks with
  | nil => cases hd
  | cons k ks => exact h.keeps (k :: ks) d hd

theorem tables_grows (ht : TidyEntries last → TidyEntries last') (done done' : List Data) :
    (Node.tables done last).Grows (.tables done' last') := by
  refine ⟨fun ks d hd => ?_, ht⟩
  cases ks <;> cases hd

/-- A table that is there may be exchanged for one that has its values. -/
theorem grows_set_table {origin : Origin} (hk : es.get? k = some (.table origin sub))
    (h : sub.Grows sub') (origin' : Origin) : es.Grows (set k (.table origin' sub') es) := by
  refine grows_set (fun hnone => ?_) fun old hold => ?_
  · rw [hk] at hnone
    cases hnone
  · rw [hk] at hold
    cases hold
    exact h.table origin origin'

theorem grows_set_tables {done : List Data} (hk : es.get? k = some (.tables done last))
    (ht : TidyEntries last → TidyEntries last') (done' : List Data) :
    es.Grows (set k (.tables done' last') es) := by
  refine grows_set (fun hnone => ?_) fun old hold => ?_
  · rw [hk] at hnone
    cases hnone
  · rw [hk] at hold
    cases hold
    exact tables_grows ht done done'

theorem grows_set_new (hk : es.get? k = none) (hn : n.Tidy) : es.Grows (set k n es) :=
  grows_set (fun _ => hn) fun old hold => by rw [hk] at hold; cases hold

theorem add_grows (h : add k d es = some es') : es.Grows es' := by
  unfold add at h
  split at h
  · next hk =>
    cases h
    exact grows_set_new hk trivial
  · cases h

theorem addDotted_grows {ks : List String} (h : addDotted k d ks es = some es') :
    es.Grows es' := by
  induction ks generalizing es es' with
  | nil => exact add_grows h
  | cons key ks ih =>
    rw [addDotted] at h
    split at h
    · next hk =>
      obtain ⟨sub, hsub, rfl⟩ := Option.map_eq_some_iff.mp h
      exact grows_set_new hk ((ih hsub).tidy trivial)
    · next origin sub hk =>
      split at h
      · cases h
      · obtain ⟨sub', hsub, rfl⟩ := Option.map_eq_some_iff.mp h
        exact grows_set_table hk (ih hsub) origin
    · next done last hk =>
      split at h
      · cases h
      · obtain ⟨last', hlast, rfl⟩ := Option.map_eq_some_iff.mp h
        exact grows_set_tables hk (ih hlast).tidy done
    · cases h

theorem openTable_grows (h : openTable k es = some es') : es.Grows es' := by
  unfold openTable at h
  split at h
  · next hk =>
    cases h
    exact grows_set_new hk trivial
  · next sub hk =>
    cases h
    exact grows_set_table hk (.refl sub) .header
  · cases h

theorem get?_openTable (h : openTable k es = some es') :
    ∃ sub, get? k es' = some (.table .header sub) := by
  unfold openTable at h
  split at h
  · cases h
    exact ⟨[], by rw [get?_set, if_pos rfl]⟩
  · next sub _ =>
    cases h
    exact ⟨sub, by rw [get?_set, if_pos rfl]⟩
  · cases h

theorem openNext_grows (h : openNext k es = some es') : es.Grows es' := by
  unfold openNext at h
  split at h
  · next hk =>
    cases h
    exact grows_set_new hk trivial
  · next done last hk =>
    cases h
    have hempty : TidyEntries [] := trivial
    exact grows_set_tables hk (fun _ => hempty) _
  · cases h

/-- What the header of a table does, or of the next table of a list. -/
theorem openOne_grows {isList : Bool} (h : (if isList then openNext k else openTable k) es = some es') :
    es.Grows es' := by
  cases isList with
  | false => exact openTable_grows h
  | true => exact openNext_grows h

/-- What is done to the table at a path is done to the table around it. -/
theorem atPath_grows {f : Entries → Option Entries} (hf : ∀ es es', f es = some es' → es.Grows es')
    {path : List String} (h : atPath f path es = some es') : es.Grows es' := by
  induction path generalizing es es' with
  | nil => exact hf es es' h
  | cons key path ih =>
    rw [atPath] at h
    split at h
    · next hk =>
      obtain ⟨sub, hsub, rfl⟩ := Option.map_eq_some_iff.mp h
      exact grows_set_new hk ((ih hsub).tidy trivial)
    · next origin sub hk =>
      obtain ⟨sub', hsub, rfl⟩ := Option.map_eq_some_iff.mp h
      exact grows_set_table hk (ih hsub) origin
    · next done last hk =>
      obtain ⟨last', hlast, rfl⟩ := Option.map_eq_some_iff.mp h
      exact grows_set_tables hk (ih hlast).tidy done
    · cases h

end Entries

open Entries

/-- The fields of a tidy table are its keys with what they stand for. -/
theorem field?_entriesToData {es : Entries} (h : TidyEntries es) (k : String) :
    field? k (entriesToData es) = (get? k es).map Node.toData := by
  induction es with
  | nil => rfl
  | cons e es ih =>
    obtain ⟨k', n⟩ := e
    obtain ⟨hnone, -, hes⟩ := h
    have hrest := ih hes
    unfold field? at hrest ⊢
    rw [get?_cons, entriesToData]
    by_cases hk : k = k'
    · subst hk
      rw [show get? k es = none from hnone, Option.map_none, Option.map_eq_none_iff,
        List.getLast?_eq_none_iff] at hrest
      rw [List.filter_cons_of_pos (by simp), hrest, if_pos rfl]
      rfl
    · rw [List.filter_cons_of_neg (by simpa using Ne.symm hk), hrest, if_neg hk]

/-- A table with a value in it is a map, which has all the values of the table. -/
theorem fields_of_value? {es : Entries} (h : TidyEntries es) {k name : String} {d : Data}
    (hd : es.value? [k, name] = some d) : ∃ fields, field? k (entriesToData es) = some (.map fields) ∧
      ∀ name d, es.value? [k, name] = some d → field? name fields = some d := by
  obtain ⟨n, hn, hvalue⟩ := Option.bind_eq_some_iff.mp hd
  cases n with
  | value | tables => cases hvalue
  | table origin sub =>
    refine ⟨entriesToData sub, by rw [field?_entriesToData h, hn]; rfl, fun name d hd => ?_⟩
    have hd : (get? name sub).bind (Node.value? []) = some d := by
      rw [value?, hn] at hd
      exact hd
    obtain ⟨n, hget, hvalue⟩ := Option.bind_eq_some_iff.mp hd
    have hsub : TidyEntries sub := tidy_of_get? h hn
    rw [field?_entriesToData hsub, hget]
    cases n with
    | value d' => exact hvalue
    | table | tables => cases hvalue

end Mastership.Data.Toml
