import Mastership.Settings.Source

namespace Mastership.Settings

/-- What is checked of settings before they are used. -/
structure Checked (s : Settings) : Prop where
  node : s.node ≠ ""
  interval : 0 < s.audit.interval
  concurrency : 0 < s.audit.concurrency
  buffer : 0 < s.buffer
  format : s.log.format = "pretty" ∨ s.log.format = "compact"

/-- Settings that a member can be run with, with no number of them zero. -/
structure Usable (s : Settings) : Prop extends Checked s where
  timeout : 0 < s.audit.timeout

variable {s : Settings}

/-- The checks accept what passes each of them, and nothing else. -/
theorem validate_iff : s.validate = .ok () ↔ s.Checked := by
  constructor
  · intro h
    unfold validate at h
    split at h
    · cases h
    · next hnode =>
      split at h
      · cases h
      · next hinterval =>
        split at h
        · cases h
        · next hconcurrency =>
          split at h
          · cases h
          · next hbuffer =>
            split at h
            · next hformat =>
              exact ⟨hnode, Nat.pos_of_ne_zero hinterval, Nat.pos_of_ne_zero hconcurrency,
                Nat.pos_of_ne_zero hbuffer, hformat⟩
            · cases h
  · intro h
    have hinterval := Nat.ne_of_gt h.interval
    have hconcurrency := Nat.ne_of_gt h.concurrency
    have hbuffer := Nat.ne_of_gt h.buffer
    rw [validate, if_neg h.node, if_neg hinterval, if_neg hconcurrency, if_neg hbuffer,
      if_pos h.format]

theorem ofText_iff {text : String} :
    ofText text = .ok s ↔
      (Data.Toml.read text).bind (ofData? .ignored) = some s ∧ s.Checked := by
  unfold ofText
  cases (Data.Toml.read text).bind (ofData? .ignored) with
  | none => simp
  | some given =>
    simp only [Option.some.injEq]
    cases hv : given.validate with
    | error e =>
      have hunchecked : ¬ given.Checked := by
        rw [← validate_iff, hv]
        exact nofun
      refine ⟨nofun, ?_⟩
      rintro ⟨rfl, hchecked⟩
      exact absurd hchecked hunchecked
    | ok =>
      have hchecked := validate_iff.mp hv
      constructor
      · rintro ⟨⟩
        exact ⟨rfl, hchecked⟩
      · rintro ⟨rfl, _⟩
        rfl

/-- Settings with all defaults can be used under every name but the empty one. -/
theorem forNode_usable {node : String} : (forNode node).Usable ↔ node ≠ "" := by
  refine ⟨fun h => h.node, fun h => ⟨⟨h, ?_, ?_, ?_, .inl rfl⟩, ?_⟩⟩
  all_goals simp [forNode]

/-- Only settings that pass the checks load. Whatever the text: it gives settings exactly if it is TOML
that can be taken for these settings, missing ones having their defaults, and they have a name, an
interval, a bound on the checks of a pass and a buffer that are not zero, and a known format. All
settings that can be used are accepted, and those that were loaded can be used exactly if the time that
a pass waits for a check is not zero, which nothing checks. -/
theorem loads_if_checked (text : String) (s : Settings) :
    (ofText text = .ok s ↔
      (Data.Toml.read text).bind (ofData? .ignored) = some s ∧ s.node ≠ "" ∧
        0 < s.audit.interval ∧ 0 < s.audit.concurrency ∧ 0 < s.buffer ∧
        (s.log.format = "pretty" ∨ s.log.format = "compact")) ∧
    (s.Usable → s.validate = .ok ()) ∧
    (ofText text = .ok s → (s.Usable ↔ 0 < s.audit.timeout)) := by
  refine ⟨?_, fun hs => validate_iff.mpr hs.toChecked, fun hs => ?_⟩
  · rw [ofText_iff]
    refine and_congr_right' ⟨fun h => ⟨h.node, h.interval, h.concurrency, h.buffer, h.format⟩, ?_⟩
    rintro ⟨hnode, hinterval, hconcurrency, hbuffer, hformat⟩
    exact ⟨hnode, hinterval, hconcurrency, hbuffer, hformat⟩
  · obtain ⟨_, hchecked⟩ := ofText_iff.mp hs
    exact ⟨fun h => h.timeout, fun h => ⟨hchecked, h⟩⟩

/-- A settings file by which audits wait for no check. -/
def hasty : String := "[node]\nid = \"a\"\n[mastership]\ndevice_check_timeout_ms = 0\n"

/-- Settings with a zero load that cannot be used. -/
theorem zero_timeout_loads : ∃ s, ofText hasty = .ok s ∧ ¬ s.Usable := by
  have hread : (Data.Toml.read hasty).bind (ofData? .ignored) =
      some { node := "a", audit := { timeout := 0 } } := by
    decide +kernel
  refine ⟨{ node := "a", audit := { timeout := 0 } }, ?_, fun h => Nat.lt_irrefl 0 h.timeout⟩
  rw [ofText, hread]
  rfl

end Mastership.Settings
