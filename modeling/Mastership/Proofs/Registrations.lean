import Mathlib.Data.List.TakeWhile
import Mastership.Registry

namespace Mastership

namespace DeviceId

theorem colon_not_mem_scheme (d : DeviceId) : ':' ∉ d.scheme.toList := by
  intro h
  rw [scheme, String.toList_ofList] at h
  simpa using List.mem_takeWhile_imp h

/-- A scheme ends where the first colon stands, or with the whole name. -/
theorem scheme_eq_iff {d : DeviceId} {scheme : String} :
    d.scheme = scheme ↔
      ':' ∉ scheme.toList ∧ (d.uri = scheme ∨ ∃ rest, d.uri = scheme ++ ":" ++ rest) := by
  constructor
  · rintro rfl
    refine ⟨d.colon_not_mem_scheme, ?_⟩
    have hsplit := List.takeWhile_append_dropWhile (p := (· ≠ ':')) (l := d.uri.toList)
    cases hrest : d.uri.toList.dropWhile (· ≠ ':') with
    | nil =>
      left
      rw [hrest, List.append_nil] at hsplit
      rw [DeviceId.scheme, hsplit, String.ofList_toList]
    | cons c rest =>
      right
      have hcolon : c = ':' := by
        have hne : d.uri.toList.dropWhile (· ≠ ':') ≠ [] := by
          rw [hrest]
          exact List.cons_ne_nil c rest
        have hhead : c = (d.uri.toList.dropWhile (· ≠ ':')).head hne := by
          simp only [hrest, List.head_cons]
        rw [hhead]
        simpa using List.head_dropWhile_not (· ≠ ':') hne
      refine ⟨String.ofList rest, String.toList_inj.mp ?_⟩
      rw [hrest, hcolon] at hsplit
      simpa [DeviceId.scheme] using hsplit.symm
  · rintro ⟨hscheme, h⟩
    have hplain : ∀ c ∈ scheme.toList, decide (c ≠ ':') = true := by
      intro c hc
      exact decide_eq_true fun he => hscheme (he ▸ hc)
    apply String.toList_inj.mp
    rw [DeviceId.scheme, String.toList_ofList]
    rcases h with h | ⟨rest, h⟩
    · rw [h]
      exact List.takeWhile_eq_self_iff.mpr hplain
    · have hparts : d.uri.toList = scheme.toList ++ ':' :: rest.toList := by simp [h]
      rw [hparts, List.takeWhile_append_of_pos hplain]
      simp

end DeviceId

namespace Registry

/-- What may be asked of a registry. -/
inductive Op where
  | register (id : ProviderId) (slot : Nat)
  | unregister (id : ProviderId)
deriving DecidableEq, Repr

/-- The registry after an operation, and whether that succeeded. -/
def apply (r : Registry) : Op → Registry × Bool
  | .register id slot =>
    match r.register id slot with
    | .error _ => (r, false)
    | .ok r' => (r', true)
  | .unregister id => r.unregister id

def after (r : Registry) (ops : List Op) : Registry := ops.foldl (fun r op => (r.apply op).1) r

/-- The operations, each with whether it succeeded. -/
def history (r : Registry) : List Op → List (Op × Bool)
  | [] => []
  | op :: ops => (op, (r.apply op).2) :: history (r.apply op).1 ops

/-- The registration was made, and its provider has not been unregistered since. -/
def Stands (h : List (Op × Bool)) (e : Entry) : Prop :=
  ∃ before after, h = before ++ (.register e.id e.slot, true) :: after ∧
    (.unregister e.id, true) ∉ after

variable {r : Registry} {h : List (Op × Bool)} {e : Entry} {id : ProviderId} {slot : Nat}

theorem stands_append {x : Op × Bool} :
    Stands (h ++ [x]) e ↔
      Stands h e ∧ x ≠ (.unregister e.id, true) ∨ x = (.register e.id e.slot, true) := by
  constructor
  · rintro ⟨before, after, hsplit, hkept⟩
    rcases List.eq_nil_or_concat after with rfl | ⟨mid, y, rfl⟩
    · obtain ⟨_, hx⟩ := List.append_inj' hsplit rfl
      exact .inr (List.singleton_inj.mp hx)
    · rw [List.concat_eq_append] at hsplit hkept
      rw [← List.cons_append, ← List.append_assoc] at hsplit
      obtain ⟨rfl, hx⟩ := List.append_inj' hsplit rfl
      obtain rfl := List.singleton_inj.mp hx
      simp only [List.mem_append, List.mem_singleton, not_or] at hkept
      exact .inl ⟨⟨before, mid, rfl, hkept.1⟩, Ne.symm hkept.2⟩
  · rintro (⟨⟨before, after, rfl, hkept⟩, hx⟩ | rfl)
    · refine ⟨before, after ++ [x], by simp, ?_⟩
      simp only [List.mem_append, List.mem_singleton, not_or]
      exact ⟨hkept, Ne.symm hx⟩
    · exact ⟨h, [], rfl, List.not_mem_nil⟩

/-- What fails neither makes nor ends a registration. -/
theorem stands_append_failed {op : Op} : Stands (h ++ [(op, false)]) e ↔ Stands h e := by
  simp [stands_append]

theorem register_of_some (hr : r.entries.get? id.scheme = some e) (slot : Nat) :
    r.register id slot = .error (.providerAlreadyRegistered id.scheme) := by
  simp [register, Table.contains, hr]

theorem register_of_none (hr : r.entries.get? id.scheme = none) (slot : Nat) :
    r.register id slot = .ok ⟨r.entries.insert id.scheme ⟨id, slot⟩⟩ := by
  simp [register, Table.contains, hr]

theorem isRegistered_iff :
    r.isRegistered id = true ↔ ∃ e, r.entries.get? id.scheme = some e ∧ e.id = id := by
  simp [isRegistered, Option.any_eq_true]

theorem unregister_answer (r : Registry) (id : ProviderId) :
    (r.unregister id).2 = r.isRegistered id := by
  unfold unregister
  split <;> simp [*]

/-- An operation that fails leaves everything as it is. -/
theorem apply_of_failed {op : Op} (hf : (r.apply op).2 = false) : (r.apply op).1 = r := by
  cases op with
  | register id slot =>
    simp only [apply] at hf ⊢
    split at hf
    · rfl
    · cases hf
  | unregister id =>
    simp only [apply, unregister] at hf ⊢
    split at hf
    · cases hf
    · next hr => rw [if_neg hr]

/-- The registry holds the registrations that stand, under their schemes. -/
def Keeps (r : Registry) (h : List (Op × Bool)) : Prop :=
  ∀ scheme e, r.entries.get? scheme = some e ↔ Stands h e ∧ e.id.scheme = scheme

namespace Keeps

theorem failed (hk : r.Keeps h) (op : Op) : r.Keeps (h ++ [(op, false)]) := by
  intro scheme e
  rw [stands_append_failed]
  exact hk scheme e

theorem register (hk : r.Keeps h) (hr : r.entries.get? id.scheme = none) (slot : Nat) :
    Keeps ⟨r.entries.insert id.scheme ⟨id, slot⟩⟩ (h ++ [(.register id slot, true)]) := by
  intro scheme e
  rw [Table.get?_insert, stands_append]
  by_cases hs : id.scheme = scheme
  · subst hs
    rw [if_pos rfl]
    constructor
    · rintro ⟨⟩
      exact ⟨.inr rfl, rfl⟩
    · rintro ⟨⟨hstands, _⟩ | hmade, hscheme⟩
      · -- The scheme was free, so that nothing of it stood.
        have := (hk id.scheme e).mpr ⟨hstands, hscheme⟩
        rw [hr] at this
        cases this
      · cases hmade
        rfl
  · rw [if_neg hs, hk scheme e]
    constructor
    · rintro ⟨hstands, hscheme⟩
      exact ⟨.inl ⟨hstands, by simp⟩, hscheme⟩
    · rintro ⟨⟨hstands, _⟩ | hmade, hscheme⟩
      · exact ⟨hstands, hscheme⟩
      · cases hmade
        exact absurd hscheme hs

theorem unregister (hk : r.Keeps h) (hr : r.isRegistered id = true) :
    Keeps ⟨r.entries.erase id.scheme⟩ (h ++ [(.unregister id, true)]) := by
  obtain ⟨e₀, he₀, hid⟩ := isRegistered_iff.mp hr
  have hmoved : ∀ e, Stands (h ++ [(.unregister id, true)]) e ↔ Stands h e ∧ e.id ≠ id := by
    intro e
    simp [stands_append, eq_comm]
  intro scheme e
  rw [Table.get?_erase, hmoved]
  by_cases hs : id.scheme = scheme
  · subst hs
    rw [if_pos rfl]
    refine ⟨nofun, ?_⟩
    rintro ⟨⟨hstands, hne⟩, hscheme⟩
    have he := (hk id.scheme e).mpr ⟨hstands, hscheme⟩
    rw [he₀] at he
    cases he
    exact absurd hid hne
  · rw [if_neg hs, hk scheme e]
    constructor
    · rintro ⟨hstands, rfl⟩
      exact ⟨⟨hstands, fun hid => hs (congrArg ProviderId.scheme hid.symm)⟩, rfl⟩
    · rintro ⟨⟨hstands, _⟩, hscheme⟩
      exact ⟨hstands, hscheme⟩

theorem step (hk : r.Keeps h) (op : Op) : (r.apply op).1.Keeps (h ++ [(op, (r.apply op).2)]) := by
  cases op with
  | register id slot =>
    cases hr : r.entries.get? id.scheme with
    | some e =>
      simp only [apply, register_of_some hr]
      exact hk.failed _
    | none =>
      simp only [apply, register_of_none hr]
      exact hk.register hr slot
  | unregister id =>
    simp only [apply, Registry.unregister]
    split
    · next hr => exact hk.unregister hr
    · exact hk.failed _

theorem run (hk : r.Keeps h) (ops : List Op) : (r.after ops).Keeps (h ++ r.history ops) := by
  induction ops generalizing r h with
  | nil => simpa [after, history] using hk
  | cons op ops ih =>
    have hrest := ih (hk.step op)
    rwa [List.append_assoc] at hrest

theorem free_iff (hk : r.Keeps h) (scheme : String) :
    r.entries.get? scheme = none ↔ ¬ ∃ e, Stands h e ∧ e.id.scheme = scheme := by
  rw [Option.eq_none_iff_forall_ne_some, not_exists]
  exact forall_congr' fun e => not_congr (hk scheme e)

theorem isRegistered_iff (hk : r.Keeps h) (id : ProviderId) :
    r.isRegistered id = true ↔ ∃ e, Stands h e ∧ e.id = id := by
  rw [Registry.isRegistered_iff]
  constructor
  · rintro ⟨e, he, hid⟩
    exact ⟨e, ((hk _ e).mp he).1, hid⟩
  · rintro ⟨e, hstands, hid⟩
    exact ⟨e, (hk _ e).mpr ⟨hstands, congrArg ProviderId.scheme hid⟩, hid⟩

/-- Whether a scheme is taken shows in what becomes of an attempt to register. -/
theorem register_iff (hk : r.Keeps h) (id : ProviderId) (slot : Nat) :
    ((∃ r', r.register id slot = .ok r') ↔ ¬ ∃ e, Stands h e ∧ e.id.scheme = id.scheme) ∧
      (r.register id slot = .error (.providerAlreadyRegistered id.scheme) ↔
        ∃ e, Stands h e ∧ e.id.scheme = id.scheme) := by
  rw [← hk.free_iff, ← not_iff_not (b := ∃ e, _), ← hk.free_iff]
  cases hr : r.entries.get? id.scheme with
  | none => simp [register_of_none hr]
  | some e => simp [register_of_some hr]

end Keeps

theorem keeps_empty : Keeps {} [] := by
  intro scheme e
  simp [Stands]

theorem keeps_history (ops : List Op) : (after {} ops).Keeps (history {} ops) :=
  keeps_empty.run ops

/-- A scheme that a device can have leads to the provider with an id exactly if each of its devices is
served by that provider. -/
theorem isRegistered_iff_serves (hs : ':' ∉ id.scheme.toList) :
    r.isRegistered id = true ↔
      ∀ d : DeviceId, d.scheme = id.scheme → ∃ e, r.providerFor d = some e ∧ e.id = id := by
  rw [isRegistered_iff]
  constructor
  · intro h d hd
    rwa [providerFor, hd]
  · intro h
    have hbare : (⟨id.scheme⟩ : DeviceId).scheme = id.scheme :=
      DeviceId.scheme_eq_iff.mpr ⟨hs, .inl rfl⟩
    simpa only [providerFor, hbare] using h _ hbare

/-- A registry serves each device by the registration that stands for its scheme. Whatever was
registered and unregistered: a provider can be registered exactly if no registration of its scheme
stands, and is refused by that name otherwise; it can be unregistered exactly if the registration that
stands for its scheme was made under this very id; what fails changes nothing; a device is served by the
registration that stands for the text before the first colon of its name, or the whole name, and by none
if there is no such registration; and an id is registered exactly if a registration under it stands,
which for a scheme without colon means that every device of the scheme is served by a provider of that
id. -/
theorem standing_registration_serves (ops : List Op) :
    let r := after {} ops
    let h := history {} ops
    (∀ id slot,
      ((∃ r', r.register id slot = .ok r') ↔ ¬ ∃ e, Stands h e ∧ e.id.scheme = id.scheme) ∧
      (r.register id slot = .error (.providerAlreadyRegistered id.scheme) ↔
        ∃ e, Stands h e ∧ e.id.scheme = id.scheme)) ∧
    (∀ id, (r.unregister id).2 = true ↔
      ∃ e, (Stands h e ∧ e.id.scheme = id.scheme) ∧ e.id = id) ∧
    (∀ op, (r.apply op).2 = false → (r.apply op).1 = r) ∧
    (∀ d : DeviceId, ∀ scheme, d.scheme = scheme ↔
      ':' ∉ scheme.toList ∧ (d.uri = scheme ∨ ∃ rest, d.uri = scheme ++ ":" ++ rest)) ∧
    (∀ d, (∀ e, r.providerFor d = some e ↔ Stands h e ∧ e.id.scheme = d.scheme) ∧
      (r.providerFor d = none ↔ ¬ ∃ e, Stands h e ∧ e.id.scheme = d.scheme)) ∧
    (∀ id, r.isRegistered id = true ↔ ∃ e, Stands h e ∧ e.id = id) ∧
    ∀ id : ProviderId, ':' ∉ id.scheme.toList → (r.isRegistered id = true ↔
      ∀ d : DeviceId, d.scheme = id.scheme → ∃ e, r.providerFor d = some e ∧ e.id = id) := by
  intro r h
  have hk : r.Keeps h := keeps_history ops
  refine ⟨hk.register_iff, fun id => ?_, fun op => apply_of_failed, fun d scheme =>
    DeviceId.scheme_eq_iff, fun d => ⟨hk d.scheme, hk.free_iff d.scheme⟩, hk.isRegistered_iff,
    fun id => isRegistered_iff_serves⟩
  rw [unregister_answer, hk.isRegistered_iff]
  constructor
  · rintro ⟨e, hstands, rfl⟩
    exact ⟨e, ⟨hstands, rfl⟩, rfl⟩
  · rintro ⟨e, ⟨hstands, _⟩, hid⟩
    exact ⟨e, hstands, hid⟩

/-- A provider gives way only to its own id, and the next one then serves the devices, but no provider
serves a scheme in which a colon stands. -/
example :
    (after {} [.register ⟨"of", "a"⟩ 0, .register ⟨"of", "b"⟩ 1, .unregister ⟨"of", "b"⟩,
        .unregister ⟨"of", "a"⟩, .register ⟨"of", "b"⟩ 1, .register ⟨"of:1", "c"⟩ 2]).providerFor
      ⟨"of:1:2"⟩ = some ⟨⟨"of", "b"⟩, 1⟩ := by
  decide +kernel

end Registry
end Mastership
