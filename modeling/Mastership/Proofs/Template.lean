import Mastership.CommandLine
import Mastership.Proofs.Barriers
import Mastership.Proofs.Files
import Mastership.Proofs.Lines

namespace Mastership.CommandLine

open Data Data.Toml

/-- The lines of a new settings file before the member's name. -/
def openingLines : List TextLine :=
  [.comment " WolfMaster Configuration", .comment " Generated configuration file", .blank,
    .header "node"]

/-- The lines after it, which set everything else. -/
def closingLines : List TextLine :=
  [.blank, .header "mastership",
    .comment " Delay between two audit passes over all devices",
    .number "audit_interval_secs" ['6', '0'],
    .comment " Devices checked at once during an audit pass",
    .number "audit_concurrency" ['1', '6'],
    .comment " Upper bound on a single device check",
    .number "device_check_timeout_ms" ['5', '0', '0', '0'],
    .blank, .header "events", .number "buffer_size" ['1', '0', '2', '4'],
    .blank, .header "logging", .quote "level" "info", .quote "format" "pretty"]

theorem toList_lines (ls : List String) :
    (lines ls).toList = ls.flatMap fun l => l.toList ++ ['\n'] := by
  simp [lines, List.flatMap_map]

theorem opening_written :
    templateOpening.flatMap (fun l => l.toList ++ ['\n']) = openingLines.flatMap TextLine.print := by
  decide +kernel

theorem closing_written :
    templateClosing.flatMap (fun l => l.toList ++ ['\n']) = closingLines.flatMap TextLine.print := by
  decide +kernel

theorem toList_template (node : String) : (template node).toList =
    (openingLines ++ .quote "id" node :: closingLines).flatMap TextLine.print := by
  rw [template, toList_lines, List.flatMap_append, List.flatMap_append, opening_written,
    closing_written, List.flatMap_append, List.flatMap_cons]
  simp [TextLine.print]

theorem opening_readable : ∀ l ∈ openingLines, l.Readable := by
  decide +kernel

theorem closing_readable : ∀ l ∈ closingLines, l.Readable := by
  decide +kernel

/-- The text after the line with the name, up to the end of the file. It is a barrier, so that nothing
in a name can change any other setting. -/
def closing : List Char := closingLines.flatMap TextLine.print

/-- What has been read by the end of the line with the name. -/
def named (name : String) : Entries := [("node", .table .header [("id", .value (.text name))])]

theorem toList_template_named (node : String) : (template node).toList =
    openingLines.flatMap TextLine.print ++
      ("id".toList ++ ' ' :: '=' :: ' ' :: '"' :: (node.toList ++ '"' :: '\n' :: closing)) := by
  rw [toList_template, List.flatMap_append, List.flatMap_cons]
  simp [TextLine.print, closing]

/-- The lines before the name are read as they are written, and then the name as the reader of quoted
texts finds it. -/
theorem read_template (node : String) : ∃ n, closingLines.length < n ∧
    Toml.read (template node) =
      ((quotedText? ('"' :: (node.toList ++ '"' :: '\n' :: closing))).bind fun (v, r) =>
        (lineEnd? r).bind (readLines n ["node"] (named v))).map fun es =>
          .map (entriesToData es) := by
  have htext := toList_template_named node
  have hlength : openingLines.length + 1 + closingLines.length ≤ (template node).toList.length := by
    have hopening := length_le_length_print opening_readable
    have hclosing := length_le_length_print closing_readable
    rw [htext, closing]
    simp only [List.length_append, List.length_cons]
    omega
  obtain ⟨n, hn⟩ : ∃ n, (template node).toList.length + 1 = n + 1 + openingLines.length :=
    ⟨(template node).toList.length - openingLines.length, by omega⟩
  refine ⟨n, by omega, ?_⟩
  have hfirst := htext
  rw [openingLines, List.flatMap_cons, List.append_assoc] at hfirst
  rw [read_of_line (opening_readable _ List.mem_cons_self) hfirst, hn, htext,
    readLines_written opening_readable]
  have hopening : TextLine.applyAll [] [] openingLines =
      some (["node"], [("node", .table .header [])]) := rfl
  simp only [hopening, Option.bind_some]
  rw [readLines_entry (by decide) _ _ (skipBlank_of_not_blank (by decide)), readValue_quote]
  cases quotedText? ('"' :: (node.toList ++ '"' :: '\n' :: closing)) with
  | none => rfl
  | some x => rfl

theorem settings_of_named {es : Entries} {name : String} (ht : TidyEntries es)
    (hname : es.value? ["node", "id"] = some (.text name))
    (hrest : ∀ x ∈ TextLine.settings "node" closingLines, es.value? x.1 = some x.2) :
    Settings.ofData? .ignored (.map (entriesToData es)) = some (Settings.forNode name) := by
  have hsettings : TextLine.settings "node" closingLines =
      [(["mastership", "audit_interval_secs"], .int 60), (["mastership", "audit_concurrency"], .int 16),
        (["mastership", "device_check_timeout_ms"], .int 5000), (["events", "buffer_size"], .int 1024),
        (["logging", "level"], .text "info"), (["logging", "format"], .text "pretty")] := rfl
  simp only [hsettings, List.forall_mem_cons] at hrest
  obtain ⟨hinterval, hconcurrency, htimeout, hbuffer, hlevel, hformat, -⟩ := hrest
  obtain ⟨node, hnode, hnodes⟩ := fields_of_value? ht hname
  obtain ⟨audit, haudit, haudits⟩ := fields_of_value? ht hinterval
  obtain ⟨events, hevents, heventss⟩ := fields_of_value? ht hbuffer
  obtain ⟨log, hlog, hlogs⟩ := fields_of_value? ht hlevel
  simp [Settings.ofData?, Settings.nodeOf?, Settings.bufferOf?, AuditSettings.ofData?,
    LogSettings.ofData?, record?, Record.required, Record.withDefault, Record.get?, hnode, haudit,
    hevents, hlog, hnodes _ _ hname, haudits _ _ hinterval, haudits _ _ hconcurrency,
    haudits _ _ htimeout, heventss _ _ hbuffer, hlogs _ _ hlevel, hlogs _ _ hformat, text?, nat?,
    Settings.forNode]

/-- The lines after the name are read whatever was read before them. -/
theorem settings_of_closing {n : Nat} {path : List String} {name : String} {es es' : Entries}
    (hgrows : (named name).Grows es) (h : readLines n path es closing = some es') :
    Settings.ofData? .ignored (.map (entriesToData es')) = some (Settings.forNode name) := by
  rw [← List.append_nil closing] at h
  obtain ⟨m, path₁, es₁, happly, hnil⟩ := readLines_eq_some closing_readable h
  obtain rfl : es₁ = es' := by
    cases m with
    | zero => cases hnil
    | succ m => simpa [readLines, skipBlank] using hnil
  have hall : (named name).Grows es₁ := hgrows.trans (TextLine.applyAll_grows happly)
  refine settings_of_named (hall.tidy ⟨rfl, ⟨rfl, trivial, trivial⟩, trivial⟩) (hall.keeps _ _ rfl) ?_
  obtain ⟨⟨path₂, es₂⟩, hheader, happly⟩ := Option.bind_eq_some_iff.mp happly
  cases hheader
  obtain ⟨⟨path₃, es₃⟩, hheader, happly⟩ := Option.bind_eq_some_iff.mp happly
  obtain ⟨es₄, hopen, he⟩ := Option.map_eq_some_iff.mp hheader
  cases he
  obtain ⟨sub, hsub⟩ := Entries.get?_openTable hopen
  have hset := TextLine.value?_of_applyAll hsub happly
  exact hset

theorem barrier_closing : Barrier closing := by
  obtain ⟨r, hr⟩ : ∃ r, closing = '\n' :: '[' :: 'm' :: r := ⟨_, rfl⟩
  have hmarks : ¬ ['"', '"', '"'] <:+: closing ∧ ¬ ['\x27', '\x27', '\x27'] <:+: closing := by
    decide +kernel
  rw [hr] at hmarks ⊢
  exact barrier_of_header (by decide) (by decide) (by decide) hmarks.1 hmarks.2

/-- If the file can be read at all, it sets the name to the text that is found for it, and all other
settings to their defaults. -/
theorem settings_of_template {node : String} {d : Data} (h : Toml.read (template node) = some d) :
    ∃ name r, quotedText? ('"' :: (node.toList ++ '"' :: '\n' :: closing)) = some (name, r) ∧
      Settings.ofData? .ignored d = some (Settings.forNode name) := by
  obtain ⟨n, -, hread⟩ := read_template node
  rw [hread] at h
  obtain ⟨es, hes, rfl⟩ := Option.map_eq_some_iff.mp h
  obtain ⟨⟨name, r⟩, hquoted, hes⟩ := Option.bind_eq_some_iff.mp hes
  obtain ⟨r', hend, hes⟩ := Option.bind_eq_some_iff.mp hes
  refine ⟨name, r, hquoted, ?_⟩
  have hrest : '\n' :: closing <:+ '"' :: (node.toList ++ '"' :: '\n' :: closing) :=
    ⟨'"' :: (node.toList ++ ['"']), by simp⟩
  have hr := suffix_quotedText? barrier_closing.quotes barrier_closing.apostrophes hrest hquoted
  obtain ⟨m, path, es₁, hgrows, hclosing⟩ : Reaches closing (named name) es :=
    .next (.refl _) (fun hr' => readLines_reaches barrier_closing hr' hes) (lineEnd?_later hr hend) hes
  exact settings_of_closing hgrows hclosing

/-- If a text is found for the name that ends with its line, the file can be read. -/
theorem template_of_quotedText? {node name : String}
    (h : quotedText? ('"' :: (node.toList ++ '"' :: '\n' :: closing)) = some (name, '\n' :: closing)) :
    (Toml.read (template node)).bind (Settings.ofData? .ignored) = some (Settings.forNode name) := by
  obtain ⟨n, hn, hread⟩ := read_template node
  obtain ⟨m, rfl⟩ : ∃ m, n = m + 1 + closingLines.length := ⟨n - 1 - closingLines.length, by omega⟩
  obtain ⟨es, hes⟩ : ∃ es, readLines (m + 1 + closingLines.length) ["node"] (named name) closing =
      some es := by
    rw [← List.append_nil closing, closing, readLines_written closing_readable]
    exact ⟨_, rfl⟩
  rw [hread, h]
  simp only [Option.bind_some, lineEnd?_newline, hes, Option.map_some]
  exact settings_of_closing (.refl _) hes

theorem validate_forNode {name : String} (h : name ≠ "") :
    (Settings.forNode name).validate = .ok () := by
  simp [Settings.validate, Settings.forNode, h]

theorem ofText_template {node name : String} (hne : name ≠ "")
    (h : quotedText? ('"' :: (node.toList ++ '"' :: '\n' :: closing)) = some (name, '\n' :: closing)) :
    Settings.ofText (template node) = .ok (Settings.forNode name) := by
  rw [Settings.ofText, template_of_quotedText? h]
  dsimp only
  rw [validate_forNode hne]
  rfl

/-- Settings that are loaded are those that were read. -/
theorem read_of_ofText {text : String} {s : Settings} (h : Settings.ofText text = .ok s) :
    (Toml.read text).bind (Settings.ofData? .ignored) = some s := by
  unfold Settings.ofText at h
  split at h
  · cases h
  · next s' hs' =>
    rw [hs']
    cases hvalid : s'.validate with
    | error e =>
      rw [hvalid] at h
      cases h
    | ok u =>
      rw [hvalid] at h
      exact congrArg some (Except.ok.inj h)

/-- A file that can be loaded names the member as it was to be named if the name has no quotes, no
backslashes and no control characters but tabulators, and only then. All else has its default. -/
theorem ofText_template_eq_ok {node : String} {s : Settings}
    (h : Settings.ofText (template node) = .ok s) :
    s = Settings.forNode s.node ∧ (s.node = node ↔ Verbatim node.toList) := by
  obtain ⟨d, hd, hs⟩ := Option.bind_eq_some_iff.mp (read_of_ofText h)
  obtain ⟨name, r, hquoted, hsettings⟩ := settings_of_template hd
  obtain rfl : Settings.forNode name = s := Option.some.inj (hsettings.symm.trans hs)
  refine ⟨rfl, fun he => ?_, fun hverbatim => ?_⟩
  · obtain rfl : name = node := he
    apply verbatim_of_quotedText? barrier_closing.quotes
    rw [String.ofList_toList]
    exact hquoted
  · rw [quotedText?_verbatim hverbatim (by simp), String.ofList_toList] at hquoted
    cases hquoted
    rfl

variable {d d' : Directory} {args : List String} {i : Invocation} {output node path : String}
  {s : Settings}

/-- A file gives settings, and the commands that check and show a settings file accept it. -/
structure Loads (d : Directory) (path : String) (s : Settings) : Prop where
  settings : settingsIn (d.read path) = .ok s
  accepted : ∀ start args i, request args = .run i → i.config = path →
    i.command = .validate ∨ i.command = .info → ∃ text, run d start args = (0, text, d)

theorem loads_of_settings (h : settingsIn (d.read path) = .ok s) : Loads d path s := by
  refine ⟨h, ?_⟩
  rintro start args ⟨config, level, command⟩ hargs rfl (rfl | rfl)
  · simp [run, perform, hargs, validate, h]
  · simp [run, perform, hargs, info, h]

theorem init_cases (output node : String) :
    (init output node = .exit failure "" ∧ ∃ e, Settings.ofText (template node) = .error e) ∨
    ∃ text s, init output node = .save output (template node) text ∧
      Settings.ofText (template node) = .ok s := by
  unfold init
  split
  · next e he => exact .inl ⟨rfl, e, he⟩
  · next s hs => exact .inr ⟨_, s, rfl, hs⟩

/-- A settings file is written if it can be loaded, and if it can be written at all. -/
theorem run_init_cases (h : request args = .run i) (hi : i.command = .init output node)
    (d : Directory) (start : Nat) :
    (run d start args = (failure, "", d) ∧
      ∀ s, Settings.ofText (template node) = .ok s → d.write output (template node) = none) ∨
    ∃ text s d', run d start args = (0, text, d') ∧ Settings.ofText (template node) = .ok s ∧
      d.write output (template node) = some d' := by
  have hperform : perform d.read start (request args) = init output node := by rw [h, perform, hi]
  unfold run
  rw [hperform]
  rcases init_cases output node with ⟨hinit, e, he⟩ | ⟨text, s, hinit, hs⟩
  · rw [hinit]
    refine .inl ⟨rfl, fun s hs => ?_⟩
    rw [he] at hs
    cases hs
  · rw [hinit]
    dsimp only
    cases hwrite : d.write output (template node) with
    | none => exact .inl ⟨rfl, fun _ _ => rfl⟩
    | some d' => exact .inr ⟨text, s, d', rfl, hs, rfl⟩

/-- Writing a settings file for a member fails, and then changes nothing; or it makes one file, which can
be loaded and gives all settings but the name their defaults. The name in it is the one that was given if
that has no quotes, no backslashes and no control characters but tabulators, and only then; for such a
name, if it is not empty, it does not fail unless the file cannot be written. -/
theorem init_reads_back_verbatim (h : request args = .run i) (hi : i.command = .init output node)
    (d : Directory) (start : Nat) :
    ((run d start args).1 ≠ 0 ∧ (run d start args).2.2 = d ∨
      ∃ text d' name, run d start args = (0, text, d') ∧ d.Wrote d' output (template node) ∧
        Loads d' output (Settings.forNode name) ∧ (name = node ↔ Verbatim node.toList)) ∧
    (Verbatim node.toList → node ≠ "" → (d.write output (template node)).isSome →
      (run d start args).1 = 0) := by
  rcases run_init_cases h hi d start with ⟨hrun, hfail⟩ | ⟨text, s, d', hrun, hs, hwrite⟩
  · refine ⟨.inl (by simp [hrun, failure]), fun hverbatim hne hwritten => ?_⟩
    have hquoted := quotedText?_verbatim (r := '\n' :: closing) hverbatim (by simp)
    rw [String.ofList_toList] at hquoted
    rw [hfail _ (ofText_template hne hquoted)] at hwritten
    cases hwritten
  · have hwrote := Directory.wrote_of_write hwrite
    obtain ⟨hdefaults, hname⟩ := ofText_template_eq_ok hs
    have hloads : settingsIn (d'.read output) = .ok (Settings.forNode s.node) := by
      rw [hwrote.read, ← hdefaults]
      exact hs
    exact ⟨.inr ⟨text, d', s.node, hrun, hwrote, loads_of_settings hloads, hname⟩,
      fun _ _ _ => by rw [hrun]⟩

/-- A plain name is read back. -/
theorem plain_name_read_back : ∃ text d',
    run {} 0 ["init", "--node-id", "edge-7"] = (0, text, d') ∧
      Loads d' "wolfmaster.toml" (Settings.forNode "edge-7") := by
  have hrequest : request ["init", "--node-id", "edge-7"] =
      .run ⟨"wolfmaster.toml", "info", .init "wolfmaster.toml" "edge-7"⟩ := rfl
  obtain ⟨hcases, hwritten⟩ := init_reads_back_verbatim hrequest rfl {} 0
  have hcode := hwritten (by decide) (by decide) (by decide +kernel)
  rcases hcases with ⟨hfail, -⟩ | ⟨text, d', name, hrun, -, hloads, hname⟩
  · exact absurd hcode hfail
  · obtain rfl : name = "edge-7" := hname.mpr (by decide)
    exact ⟨text, d', hrun, hloads⟩

/-- An escape is read back as what it stands for: the file can be loaded, but names another member. -/
theorem escape_read_back_differs : ∃ text d',
    run {} 0 ["init", "--node-id", "a\\u0041b"] = (0, text, d') ∧
      settingsIn (d'.read "wolfmaster.toml") = .ok (Settings.forNode "aAb") ∧ "aAb" ≠ "a\\u0041b" := by
  have hquoted : quotedText? ('"' :: ("a\\u0041b".toList ++ '"' :: '\n' :: closing)) =
      some ("aAb", '\n' :: closing) := by
    have hlist : "a\\u0041b".toList = ['a', '\\', 'u', '0', '0', '4', '1', 'b'] := by decide
    have hread : ∀ r, quotedText? ('"' :: (['a', '\\', 'u', '0', '0', '4', '1', 'b'] ++ '"' :: r)) =
        some (String.ofList ['a', 'A', 'b'], r) := fun r => rfl
    rw [hlist, hread]
  have hsettings := ofText_template (by decide) hquoted
  have hrequest : request ["init", "--node-id", "a\\u0041b"] =
      .run ⟨"wolfmaster.toml", "info", .init "wolfmaster.toml" "a\\u0041b"⟩ := rfl
  rcases run_init_cases hrequest rfl {} 0 with ⟨-, hfail⟩ | ⟨text, s, d', hrun, hs, hwrite⟩
  · have hresolve : Directory.resolve {} "wolfmaster.toml" = some ["wolfmaster.toml"] := by
      decide +kernel
    have hwritten := Directory.write_of_resolve hresolve rfl (template "a\\u0041b")
    rw [hfail _ hsettings] at hwritten
    cases hwritten
  · refine ⟨text, d', hrun, ?_, by decide⟩
    rw [(Directory.wrote_of_write hwrite).read]
    exact hsettings

end Mastership.CommandLine
