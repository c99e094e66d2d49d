import Mastership.Proofs.Outcomes

namespace Mastership

/-- A line that answers roles at once and never refuses one. -/
structure Line.Prompt (l : Line) : Prop where
  broken : l.broken = false
  rejecting : l.rejecting = false
  crashing : l.crashing = false

/-- The line once its device is within reach, or out of it. -/
def Line.within (l : Line) (reachable : Bool) : Line := { l with reachable }

theorem Line.Prompt.within {l : Line} (h : l.Prompt) (reachable : Bool) :
    (l.within reachable).Prompt :=
  ⟨h.broken, h.rejecting, h.crashing⟩

namespace Southbound

/-- Every registration is of a provider in its slot, the slots are taken in order, and all lines are
prompt. -/
structure Sound (s : Southbound) : Prop where
  registered : ∀ scheme e, s.registry.entries.get? scheme = some e →
    e.id.scheme = scheme ∧ (s.providers.get? e.slot).map Provider.id = some e.id
  prompt : ∀ slot lines, (s.providers.get? slot).map Provider.lines = some lines →
    ∀ d, ((lines.get? d).getD {}).Prompt

theorem Sound.alike {s s' : Southbound} (h : s.Sound) (ha : s.Alike s') : s'.Sound where
  registered scheme e he := by
    rw [ha.ids]
    exact h.registered scheme e (ha.registry ▸ he)
  prompt slot lines hl := h.prompt slot lines (ha.lines slot ▸ hl)

/-- Registers a new provider, in the next slot, unless its scheme is taken. -/
def enroll (s : Southbound) (id : ProviderId) : Southbound :=
  match (s.add id).register id s.providers.size with
  | .error _ => s
  | .ok south => south

/-- Providers that are registered one after the other. -/
def ofProviders (ids : List ProviderId) : Southbound := ids.foldl enroll {}

theorem register_eq_enroll (s : Site) (id : ProviderId) :
    (s.register id).1 = s.setSouth (s.node.south.enroll id) := by
  simp only [Site.register, enroll]
  split <;> simp [Site.setSouth, *]

/-- The slots taken are those below the number of providers. -/
def Packed (s : Southbound) : Prop :=
  ∀ slot, (s.providers.get? slot).isSome → slot < s.providers.size

theorem enroll_packed {s : Southbound} (h : s.Packed) (id : ProviderId) : (s.enroll id).Packed := by
  have hnone : s.providers.get? s.providers.size = none := by
    cases hg : s.providers.get? s.providers.size with
    | none => rfl
    | some p => exact absurd (h s.providers.size (by simp [hg])) (Nat.lt_irrefl _)
  have hadd : (s.add id).Packed := by
    intro slot hslot
    simp only [add, Table.get?_insert, Table.size_insert _ hnone] at hslot ⊢
    split at hslot
    · next he => omega
    · exact Nat.lt_succ_of_lt (h slot hslot)
  simp only [enroll, register, Registry.register]
  split
  · next hr =>
    exact h
  · next south hr =>
    split at hr
    · cases hr
    · cases hr
      exact hadd

theorem enroll_sound {s : Southbound} (hp : s.Packed) (h : s.Sound) (id : ProviderId) :
    (s.enroll id).Sound := by
  simp only [enroll, register, Registry.register]
  split
  · exact h
  · next south hr =>
    split at hr
    · cases hr
    · cases hr
      refine ⟨?_, ?_⟩
      · intro scheme e he
        simp only [add, Table.get?_insert] at he ⊢
        split at he
        · next hs =>
          cases he
          simp [hs]
        · obtain ⟨hscheme, hid⟩ := h.registered scheme e he
          refine ⟨hscheme, ?_⟩
          -- A registered provider is in a slot that was taken before.
          have hlt := hp e.slot (by
            cases hg : s.providers.get? e.slot with
            | none => simp [hg] at hid
            | some p => rfl)
          rw [if_neg (Nat.ne_of_gt hlt)]
          exact hid
      · intro slot lines hl d
        simp only [add, Table.get?_insert] at hl
        split at hl
        · cases hl
          exact ⟨rfl, rfl, rfl⟩
        · exact h.prompt slot lines hl d

theorem foldl_enroll_sound {s : Southbound} (hp : s.Packed) (h : s.Sound) (ids : List ProviderId) :
    (ids.foldl enroll s).Sound := by
  induction ids generalizing s with
  | nil => exact h
  | cons id ids ih => exact ih (enroll_packed hp id) (enroll_sound hp h id)

theorem ofProviders_sound (ids : List ProviderId) : (ofProviders ids).Sound :=
  foldl_enroll_sound (fun _ h => by cases h) ⟨fun _ _ h => (by cases h), fun _ _ h => (by cases h)⟩
    ids

theorem foldl_enroll_lines {s : Southbound}
    (h : ∀ slot lines, (s.providers.get? slot).map Provider.lines = some lines → lines = ∅)
    (ids : List ProviderId) (slot : Nat) (lines : Table DeviceId Line)
    (hl : ((ids.foldl enroll s).providers.get? slot).map Provider.lines = some lines) :
    lines = ∅ := by
  induction ids generalizing s with
  | nil => exact h slot lines hl
  | cons id ids ih =>
    refine ih ?_ hl
    intro slot lines hs
    simp only [enroll, register, Registry.register] at hs
    split at hs
    · exact h slot lines hs
    · next south hr =>
      split at hr
      · cases hr
      · cases hr
        simp only [add, Table.get?_insert] at hs
        split at hs
        · cases hs
          rfl
        · exact h slot lines hs

/-- No device is reachable through providers that were only just registered. -/
theorem ofProviders_lineFor (ids : List ProviderId) (d : DeviceId) (line : Line)
    (h : (ofProviders ids).lineFor d = some line) : line = {} := by
  rw [lineFor_eq] at h
  obtain ⟨lines, hl, rfl⟩ := Option.map_eq_some_iff.mp h
  obtain ⟨slot, _, hs⟩ := Option.bind_eq_some_iff.mp hl
  rw [foldl_enroll_lines (fun _ _ h => by cases h) ids slot lines hs]
  rfl

/-- The provider that serves a device is there, and registered. -/
theorem Sound.slotFor {s : Southbound} (h : s.Sound) {d : DeviceId} {slot : Nat}
    (hs : s.slotFor d = some slot) : ∃ p, s.providers.get? slot = some p ∧
      s.registry.isRegistered p.id = true := by
  obtain ⟨e, he, rfl⟩ := Option.map_eq_some_iff.mp hs
  obtain ⟨hscheme, hid⟩ := h.registered d.scheme e he
  obtain ⟨p, hp, hpid⟩ := Option.map_eq_some_iff.mp hid
  refine ⟨p, hp, ?_⟩
  have hr : s.registry.entries.get? e.id.scheme = some e := hscheme ▸ he
  simp [Registry.isRegistered, hpid, hr]

theorem Sound.lineFor {s : Southbound} (h : s.Sound) {d : DeviceId} {line : Line}
    (hl : s.lineFor d = some line) : line.Prompt := by
  rw [lineFor_eq] at hl
  obtain ⟨lines, hb, rfl⟩ := Option.map_eq_some_iff.mp hl
  obtain ⟨slot, _, hs⟩ := Option.bind_eq_some_iff.mp hb
  exact h.prompt slot lines hs d

@[simp] theorem slotFor_setLine (s : Southbound) (slot : Nat) (d d' : DeviceId) (f : Line → Line) :
    (s.setLine slot d f).slotFor d' = s.slotFor d' := by
  unfold setLine
  split <;> rfl

theorem get?_setLine (s : Southbound) (slot slot' : Nat) (d : DeviceId) (f : Line → Line) :
    (s.setLine slot d f).providers.get? slot' =
      if slot = slot' then (s.providers.get? slot').map (·.setLine d f)
      else s.providers.get? slot' := by
  unfold setLine
  split
  · next hn =>
    split
    · next hs => simp [← hs, hn]
    · rfl
  · next p hp =>
    rw [Table.get?_insert]
    split
    · next hs => simp [← hs, hp]
    · rfl

theorem line_setLine (p : Provider) (d d' : DeviceId) (f : Line → Line) :
    (p.setLine d f).line d' = if d = d' then f (p.line d') else p.line d' := by
  by_cases hd : d = d'
  · subst hd
    simp [Provider.line, Provider.setLine]
  · simp [Provider.line, Provider.setLine, Table.get?_insert_of_ne _ _ hd, hd]

theorem lineFor_setLine (s : Southbound) {slot : Nat} {d : DeviceId} (h : s.slotFor d = some slot)
    (f : Line → Line) : (s.setLine slot d f).lineFor d = (s.lineFor d).map f := by
  simp only [lineFor, slotFor_setLine, h, Option.bind_some, get?_setLine, if_true]
  cases s.providers.get? slot <;> simp [line_setLine]

theorem lineFor_setLine_of_ne (s : Southbound) (slot : Nat) {d d' : DeviceId} (h : d' ≠ d)
    (f : Line → Line) : (s.setLine slot d f).lineFor d' = s.lineFor d' := by
  simp only [lineFor, slotFor_setLine]
  cases s.slotFor d' with
  | none => rfl
  | some slot' =>
    simp only [Option.bind_some, get?_setLine]
    split <;> cases s.providers.get? slot' <;> simp [line_setLine, h.symm]

theorem Sound.setLine {s : Southbound} (h : s.Sound) (slot : Nat) (d : DeviceId) {f : Line → Line}
    (hf : ∀ l : Line, l.Prompt → (f l).Prompt) : (s.setLine slot d f).Sound where
  registered scheme e he := by
    have hr : (s.setLine slot d f).registry = s.registry := by
      unfold Southbound.setLine
      split <;> rfl
    obtain ⟨hscheme, hid⟩ := h.registered scheme e (hr ▸ he)
    refine ⟨hscheme, ?_⟩
    rw [get?_setLine, ← hid]
    split <;> cases s.providers.get? e.slot <;> rfl
  prompt slot' lines hl d' := by
    rw [get?_setLine] at hl
    split at hl
    · obtain ⟨p', hp', rfl⟩ := Option.map_eq_some_iff.mp hl
      obtain ⟨p, hp, rfl⟩ := Option.map_eq_some_iff.mp hp'
      have hall := h.prompt slot' p.lines (by simp [hp])
      change ((p.setLine d f).line d').Prompt
      rw [line_setLine]
      split
      · exact hf _ (hall d')
      · exact hall d'
    · exact h.prompt slot' lines hl d'

end Southbound

namespace Site

variable {d : DeviceId} {ms ms' : List Seat.Move} {ps : List Push} {s s' s'' : Site}

/-- As `Does`, but for an operation that may also change the line to its device. -/
structure Affects (d : DeviceId) (ms : List Seat.Move) (s s' : Site) : Prop where
  id : s'.node.id = s.node.id
  own : ∀ m ∈ ms, m.node = s.node.id
  election : s'.election = (s.election.moves d ms).1
  journal : ∃ ns, s'.journal = s.journal ++ ns ∧ announced ns = (s.election.moves d ms).2
  reachable : ∀ d' ≠ d, s'.reachable? d' = s.reachable? d'
  applied : ∀ d' ≠ d, s'.applied d' = s.applied d'
  stored : ∀ d' ≠ d, s'.stored d' = s.stored d'

theorem Does.affects (h : Does d ms ps s s') : Affects d ms s s' where
  id := h.id
  own := h.own
  election := h.election
  journal := by
    obtain ⟨ns, hj, ha, _⟩ := h.journal
    exact ⟨ns, hj, ha⟩
  reachable d' _ := h.reachable? d'
  applied _ hd := h.applied_ne hd
  stored _ hd := h.stored_ne hd

theorem setLine_affects (s : Site) (slot : Nat) (d : DeviceId) (f : Line → Line) :
    Affects d [] s (s.setLine slot d f) where
  id := rfl
  own := by simp
  election := rfl
  journal := ⟨[], (List.append_nil _).symm, rfl⟩
  reachable d' hd := by
    simp only [reachable?, setLine, setSouth, Southbound.lineFor_setLine_of_ne _ _ hd]
  applied _ _ := rfl
  stored _ _ := rfl

/-- An operation that changes no line may follow one that moves nothing. -/
theorem Affects.before (h : Affects d [] s s') (h' : Does d ms ps s' s'') : Affects d ms s s'' where
  id := h'.id.trans h.id
  own m hm := (h'.own m hm).trans h.id
  election := by rw [h'.election, show s'.election = s.election from h.election]
  journal := by
    obtain ⟨ns, hj, ha⟩ := h.journal
    obtain ⟨ns', hj', ha', _⟩ := h'.journal
    have he : s'.election = s.election := h.election
    refine ⟨ns ++ ns', by rw [hj', hj, List.append_assoc], ?_⟩
    rw [announced_append, ha, ha', he]
    rfl
  reachable d' hd := (h'.reachable? d').trans (h.reachable d' hd)
  applied _ hd := (h'.applied_ne hd).trans (h.applied _ hd)
  stored _ hd := (h'.stored_ne hd).trans (h.stored _ hd)

/-- A controller that is active, in good service and told the truth. -/
structure Calm (s : Site) : Prop where
  truthful : s.Truthful
  active : s.node.active = true
  request : s.node.faults.request = false
  relinquish : s.node.faults.relinquish = false
  south : s.node.south.Sound

theorem Does.calm (h : Does d ms ps s s') (hc : s.Calm) (ht : s'.Truthful) : s'.Calm where
  truthful := ht
  active := h.active.trans hc.active
  request := h.request.trans hc.request
  relinquish := h.relinquish.trans hc.relinquish
  south := hc.south.alike h.south

theorem Calm.setLine (h : s.Calm) (slot : Nat) (d : DeviceId) {f : Line → Line}
    (hf : ∀ l : Line, l.Prompt → (f l).Prompt) : (s.setLine slot d f).Calm where
  truthful := ⟨h.truthful.terms, h.truthful.seen⟩
  active := h.active
  request := h.request
  relinquish := h.relinquish
  south := h.south.setLine slot d hf

theorem Calm.requests_eq (h : s.Calm) : s.requests = [.request s.node.id] := by
  simp [requests, h.request]

theorem Calm.withdrawals_eq (h : s.Calm) : s.withdrawals = [.relinquish s.node.id] := by
  simp [withdrawals, h.relinquish]

theorem Calm.reachable?_eq (h : s.Calm) (d : DeviceId) :
    s.reachable? d = some ((s.node.south.lineFor d).any Line.reachable) := by
  unfold reachable?
  cases hl : s.node.south.lineFor d with
  | none => rfl
  | some line => simp [(h.south.lineFor hl).crashing]

theorem Calm.accepts (h : s.Calm) (hl : (s.node.south.lineFor d).isSome) :
    s.accepts d = true := by
  obtain ⟨line, hl⟩ := Option.isSome_iff_exists.mp hl
  have hp := h.south.lineFor hl
  simp [Site.accepts, hl, hp.broken, hp.rejecting]

theorem Calm.not_refused (h : s.Calm) {slot : Nat} (hs : s.node.south.slotFor d = some slot) :
    s.refusal? slot = none := by
  obtain ⟨p, hp, hr⟩ := h.south.slotFor hs
  simp [refusal?, h.active, providerId, hp, hr]

/-- A device becomes reachable and connects, through the provider that serves it. -/
def attach (s : Site) (d : DeviceId) (description : DeviceDescription) : Site :=
  match s.node.south.slotFor d with
  | none => s
  | some slot =>
    answerNow ((s.setLine slot d (·.within true)).connect slot d description).1

/-- A device ceases to be reachable and disconnects. -/
def detach (s : Site) (d : DeviceId) : Site :=
  match s.node.south.slotFor d with
  | none => s
  | some slot => ((s.setLine slot d (·.within false)).disconnect slot d).1

theorem setLine_served (s : Site) {slot : Nat} (hs : s.node.south.slotFor d = some slot)
    (h : s.Calm) (f : Line → Line) :
    ∃ line, s.node.south.lineFor d = some line ∧
      (s.setLine slot d f).node.south.lineFor d = some (f line) := by
  obtain ⟨p, hp, _⟩ := h.south.slotFor hs
  have hl : s.node.south.lineFor d = some (p.line d) := by simp [Southbound.lineFor, hs, hp]
  refine ⟨_, hl, ?_⟩
  simp only [setLine, setSouth, Southbound.lineFor_setLine _ hs, hl, Option.map_some]

/-- An attached device is reached, stored, asked for, and given the role of the term. -/
theorem Calm.attach (h : s.Calm) (d : DeviceId) (description : DeviceDescription) :
    s.attach d description = s ∨
      Affects d [.request s.node.id] s (s.attach d description) ∧
        (s.attach d description).Calm ∧
        (s.attach d description).reachable? d = some true ∧
        (s.attach d description).stored d = true ∧
        (s.attach d description).applied d =
          targetRole .none (decide ((s.attach d description).election.master? d =
            some s.node.id)) := by
  cases hs : s.node.south.slotFor d with
  | none => exact .inl (by simp only [Site.attach, hs])
  | some slot =>
    have he : s.attach d description =
        answerNow ((s.setLine slot d (·.within true)).connect slot d description).1 := by
      simp only [Site.attach, hs]
    rw [he]
    have hc := h.setLine slot d (f := (·.within true)) fun _ hl => hl.within true
    have hfit : (s.setLine slot d (·.within true)).node.south.slotFor d = some slot :=
      (Southbound.slotFor_setLine _ slot d d _).trans hs
    obtain ⟨line, _, hl⟩ := setLine_served s hs h (·.within true)
    have ha := setLine_affects s slot d (·.within true)
    generalize s.setLine slot d (·.within true) = s₁ at hc hfit hl ha ⊢
    have hsome : (s₁.node.south.lineFor d).isSome := by simp [hl]
    obtain ⟨⟨⟨p, hd⟩, ht, hacc, _⟩, hst⟩ :=
      hc.truthful.connected_applies hsome slot description
    have hyield : s₁.yielding d = [] := by simp [yielding, hc.accepts hsome]
    rw [hyield, List.append_nil, hc.requests_eq, ha.id] at hd
    simp only [connect, hc.not_refused hfit]
    refine .inr ⟨ha.before hd, hd.calm hc ht, ?_, hst, ?_⟩
    · rw [hd.reachable?, hc.reachable?_eq, hl]
      rfl
    · rw [hacc (hc.accepts hsome), ha.id]

/-- A detached device is neither reached nor given a role any more, and it is given up; it may have
been asked for before. -/
theorem Calm.detach (h : s.Calm) (d : DeviceId) :
    s.detach d = s ∧ s.reachable? d ≠ some true ∨
      (∃ ms, Affects d (ms ++ [.relinquish s.node.id]) s (s.detach d)) ∧
        (s.detach d).Calm ∧ (s.detach d).reachable? d = some false ∧
        (s.detach d).applied d = .none := by
  cases hs : s.node.south.slotFor d with
  | none => exact .inl ⟨by simp only [Site.detach, hs], by simp [reachable?, Southbound.lineFor, hs]⟩
  | some slot =>
    have he : s.detach d = ((s.setLine slot d (·.within false)).disconnect slot d).1 := by
      simp only [Site.detach, hs]
    rw [he]
    have hc := h.setLine slot d (f := (·.within false)) fun _ hl => hl.within false
    have hfit : (s.setLine slot d (·.within false)).node.south.slotFor d = some slot :=
      (Southbound.slotFor_setLine _ slot d d _).trans hs
    obtain ⟨line, _, hl⟩ := setLine_served s hs h (·.within false)
    have ha := setLine_affects s slot d (·.within false)
    generalize s.setLine slot d (·.within false) = s₁ at hc hfit hl ha ⊢
    have ht := hc.truthful.disconnect slot d
    simp only [disconnect, hc.not_refused hfit] at ht ⊢
    obtain ⟨ms, hms, hd⟩ := disconnected_does s₁ d
    rw [hc.withdrawals_eq, ha.id] at hms
    refine .inr ⟨?_, hd.calm hc ht, ?_, ?_⟩
    · rcases hms with rfl | rfl
      · exact ⟨[], ha.before hd⟩
      · exact ⟨_, ha.before hd⟩
    · rw [hd.reachable?, hc.reachable?_eq, hl]
      rfl
    · rw [applied, RoleTable.role, disconnected_entry]

end Site
end Mastership
