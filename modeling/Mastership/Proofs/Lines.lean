import Mastership.Proofs.Additions
import Mastership.Proofs.Lexemes

namespace Mastership.Data.Toml

variable {c d : Char} {cs ds r : List Char} {n : Nat}

def Digits (ds : List Char) : Prop := ∀ d ∈ ds, d.isDigit = true

instance (ds : List Char) : Decidable (Digits ds) :=
  List.decidableBAll (fun d : Char => d.isDigit = true) ds

theorem digits_cons : Digits (d :: ds) ↔ d.isDigit = true ∧ Digits ds := List.forall_mem_cons

/-- So many digits are only found where they all come before the end of the line. -/
theorem fixed?_line (h : Digits ds) (width : Nat) (r : List Char) :
    fixed? width (ds ++ '\n' :: r) = none ∨
      ∃ m ds', Digits ds' ∧ fixed? width (ds ++ '\n' :: r) = some (m, ds' ++ '\n' :: r) := by
  rcases Nat.lt_or_ge ds.length width with hlt | hle
  · left
    obtain ⟨k, hk⟩ : ∃ k, width - ds.length = k + 1 := ⟨width - ds.length - 1, by omega⟩
    have hnewline : '\n' ∈ (ds ++ '\n' :: r).take width := by
      rw [List.take_append, hk, List.take_succ_cons]
      simp
    rw [fixed?, if_neg]
    rintro ⟨-, hall⟩
    exact absurd (List.all_eq_true.mp hall _ hnewline) (by decide)
  · right
    refine ⟨ofDigits 10 (ds.take width), ds.drop width, fun x hx => h x (List.mem_of_mem_drop hx), ?_⟩
    have htake : (ds ++ '\n' :: r).take width = ds.take width := List.take_append_of_le_length hle
    have hall : (ds.take width).all Char.isDigit = true :=
      List.all_eq_true.mpr fun x hx => h x (List.mem_of_mem_take hx)
    rw [fixed?, htake, if_pos ⟨List.length_take_of_le hle, hall⟩, List.drop_append_of_le_length hle]

theorem expect?_line (h : Digits ds) (hc : c.isDigit = false) (hn : c ≠ '\n') (r : List Char) :
    expect? c (ds ++ '\n' :: r) = none := by
  cases ds with
  | nil => simp [expect?, hn.symm]
  | cons d ds =>
    have hd : d ≠ c := ne_of_kind (digits_cons.mp h).1 hc
    simp [expect?, hd]

/-- A number is no moment of time. -/
theorem moment?_line (h : Digits ds) (r : List Char) : moment? (ds ++ '\n' :: r) = none := by
  have hday : day? (ds ++ '\n' :: r) = none := by
    rcases fixed?_line h 4 r with hf | ⟨m, ds', hds, hf⟩
    · simp [day?, hf]
    · simp [day?, hf, expect?_line hds]
  have htime : time? (ds ++ '\n' :: r) = none := by
    rcases fixed?_line h 2 r with hf | ⟨m, ds', hds, hf⟩
    · simp [time?, within?, hf]
    · simp only [time?, within?, hf, Option.bind_some]
      split
      · simp [expect?_line hds]
      · rfl
  simp [moment?, hday, htime]

theorem moreDigits_line (h : Digits ds) (r : List Char) :
    moreDigits Char.isDigit (ds ++ '\n' :: r) = (ds, '\n' :: r) := by
  induction ds with
  | nil => simp [moreDigits]
  | cons d ds ih =>
    obtain ⟨hd, hds⟩ := digits_cons.mp h
    have hne : d ≠ '_' := ne_of_kind hd (by decide)
    rw [List.cons_append, moreDigits.eq_2 _ _ _ (fun c r hc => absurd hc hne), if_pos hd, ih hds]

theorem sign_digit (hd : d.isDigit = true) (cs : List Char) : sign (d :: cs) = (false, d :: cs) :=
  sign_none (ne_of_kind hd (by decide)) (ne_of_kind hd (by decide))

theorem decimal?_line (hd : d.isDigit = true) (h0 : d ≠ '0') (h : Digits ds) (r : List Char) :
    decimal? (d :: (ds ++ '\n' :: r)) = some (d :: ds, '\n' :: r) := by
  unfold decimal?
  split
  · next he => exact absurd (List.cons.inj he).1 h0
  · simp [digits?, hd, moreDigits_line h r]

theorem integer?_line (hd : d.isDigit = true) (h0 : d ≠ '0') (h : Digits ds) (r : List Char) :
    integer? (d :: (ds ++ '\n' :: r)) = (fit? (ofDigits 10 (d :: ds))).map (·, '\n' :: r) := by
  unfold integer?
  split
  · next he => exact absurd (List.cons.inj he).1 h0
  · next he => exact absurd (List.cons.inj he).1 h0
  · next he => exact absurd (List.cons.inj he).1 h0
  · simp [sign_digit hd, decimal?_line hd h0 h r]

/-- A number that does not begin with a zero is read back from the end of a line. -/
theorem numeral?_line (hd : d.isDigit = true) (h0 : d ≠ '0') (h : Digits ds) (r : List Char) :
    numeral? (d :: (ds ++ '\n' :: r)) = (fit? (ofDigits 10 (d :: ds))).map (·, '\n' :: r) := by
  have hmoment : moment? (d :: (ds ++ '\n' :: r)) = none :=
    moment?_line (digits_cons.mpr ⟨hd, h⟩) r
  have hfloat : float? (d :: (ds ++ '\n' :: r)) = none := by
    simp [float?, sign_digit hd, decimal?_line hd h0 h r, fraction, exponent]
  have hspecial : special? (d :: (ds ++ '\n' :: r)) = none := by
    simp only [special?, sign_digit hd]
    split
    · next he =>
      obtain ⟨rfl, -⟩ := List.cons.inj he
      cases hd
    · next he =>
      obtain ⟨rfl, -⟩ := List.cons.inj he
      cases hd
    · rfl
  simp [numeral?, hmoment, hfloat, hspecial, integer?_line hd h0 h r]

/-- A number that is written without a sign, and without a zero in front. -/
def Numeral : List Char → Prop
  | [] => False
  | d :: ds => d ≠ '0' ∧ Digits (d :: ds) ∧ ofDigits 10 (d :: ds) ≤ 0x7fffffffffffffff

instance : DecidablePred Numeral
  | [] => inferInstanceAs (Decidable False)
  | d :: ds => inferInstanceAs
    (Decidable (d ≠ '0' ∧ Digits (d :: ds) ∧ ofDigits 10 (d :: ds) ≤ 0x7fffffffffffffff))

theorem readValue_digit (hd : d.isDigit = true) (cs : List Char) :
    readValue (n + 1) 0 (d :: cs) = numeral? (d :: cs) := by
  have hne : ∀ m : Char, m.isDigit = false → d ≠ m := fun _ => ne_of_kind hd
  unfold readValue
  split
  · next he => exact absurd (List.cons.inj he).1 (hne _ (by decide))
  · next he => exact absurd (List.cons.inj he).1 (hne _ (by decide))
  · next he => exact absurd (List.cons.inj he).1 (hne _ (by decide))
  · next he => exact absurd (List.cons.inj he).1 (hne _ (by decide))
  · next he => exact absurd (List.cons.inj he).1 (hne _ (by decide))
  · next he => exact absurd (List.cons.inj he).1 (hne _ (by decide))
  · rfl

theorem readValue_numeral (h : Numeral ds) (r : List Char) :
    readValue (n + 1) 0 (ds ++ '\n' :: r) = some (.int (ofDigits 10 ds), '\n' :: r) := by
  cases ds with
  | nil => exact h.elim
  | cons d ds =>
    obtain ⟨h0, hdigits, hle⟩ := h
    obtain ⟨hd, hds⟩ := digits_cons.mp hdigits
    have hfit : fit? (ofDigits 10 (d :: ds)) = some (.int (ofDigits 10 (d :: ds))) := by
      rw [fit?, if_pos (by omega)]
    rw [List.cons_append, readValue_digit hd, numeral?_line hd h0 hds, hfit]
    rfl

theorem readValue_quote (cs : List Char) :
    readValue (n + 1) 0 ('"' :: cs) =
      (quotedText? ('"' :: cs)).map fun (s, r) => (.text s, r) := by
  rw [readValue]

theorem readValue_verbatim {s : String} (h : Verbatim s.toList) (r : List Char) :
    readValue (n + 1) 0 ('"' :: (s.toList ++ '"' :: '\n' :: r)) = some (.text s, '\n' :: r) := by
  rw [readValue_quote, quotedText?_verbatim h (by simp), String.ofList_toList]
  rfl

/-- A name that may stand as a key without quotes. -/
def Bare (name : List Char) : Prop := name ≠ [] ∧ ∀ c ∈ name, isBareKey c = true

instance (name : List Char) : Decidable (Bare name) :=
  @instDecidableAnd _ _ _ (List.decidableBAll (isBareKey · = true) name)

theorem skipBlank_numeral (h : Numeral ds) (r : List Char) :
    skipBlank (ds ++ '\n' :: r) = ds ++ '\n' :: r := by
  cases ds with
  | nil => exact h.elim
  | cons d ds =>
    have hd := (digits_cons.mp h.2.1).1
    refine skipBlank_of_not_blank ?_
    rw [isBlank, Bool.or_eq_false_iff, beq_eq_false_iff_ne, beq_eq_false_iff_ne]
    exact ⟨ne_of_kind hd (by decide), ne_of_kind hd (by decide)⟩

/-- What can belong to a bare name is neither blank nor a mark that begins something else. -/
theorem not_mark_of_isBareKey (h : isBareKey c = true) :
    isBlank c = false ∧ c ≠ '"' ∧ c ≠ '\x27' ∧ c ≠ '[' ∧ c ≠ '#' ∧ c ≠ '\n' ∧ c ≠ '\r' := by
  have hmarks : c ∉ [' ', '\t', '"', '\x27', '[', '#', '\n', '\r'] :=
    not_mem_of_isBareKey h (by decide)
  simp only [List.mem_cons, not_or] at hmarks
  obtain ⟨hspace, htab, hquote, happ, hbracket, hhash, hnewline, hreturn, -⟩ := hmarks
  exact ⟨by simp [isBlank, hspace, htab], hquote, happ, hbracket, hhash, hnewline, hreturn⟩

theorem simpleKey?_bare {name : List Char} (h : Bare name)
    (hr : ∀ x ∈ r.head?, isBareKey x = false) :
    simpleKey? (name ++ r) = some (String.ofList name, r) := by
  have hnone : r.takeWhile isBareKey = [] ∧ r.dropWhile isBareKey = r := by
    cases r with
    | nil => exact ⟨rfl, rfl⟩
    | cons x xs =>
      have hx := hr x rfl
      simp [hx]
  obtain ⟨c, name, rfl⟩ := List.exists_cons_of_ne_nil h.1
  obtain ⟨-, hquote, hapostrophe, -⟩ := not_mark_of_isBareKey (h.2 c List.mem_cons_self)
  have htake : (c :: name ++ r).takeWhile isBareKey = c :: name := by
    rw [List.takeWhile_append_of_pos h.2, hnone.1, List.append_nil]
  have hdrop : (c :: name ++ r).dropWhile isBareKey = r := by
    rw [List.dropWhile_append_of_pos h.2, hnone.2]
  unfold simpleKey?
  split
  · next he => exact absurd (List.cons.inj he).1 hquote
  · next he => exact absurd (List.cons.inj he).1 hapostrophe
  · dsimp only
    rw [htake, hdrop]
    rfl

/-- A bare name is read as a key up to the first character that cannot belong to it. -/
theorem key?_bare {name : List Char} (h : Bare name) (hr : ∀ x ∈ r.head?, isBareKey x = false)
    (hdot : (skipBlank r).head? ≠ some '.') :
    key? (name ++ r) = some (([], String.ofList name), skipBlank r) := by
  have hskip : skipBlank (name ++ r) = name ++ r := by
    obtain ⟨c, name, rfl⟩ := List.exists_cons_of_ne_nil h.1
    exact skipBlank_of_not_blank (not_mark_of_isBareKey (h.2 c List.mem_cons_self)).1
  have hparts : ∀ fuel, keyParts (fuel + 1) (name ++ r) =
      some ([String.ofList name], skipBlank r) := by
    intro fuel
    simp only [keyParts, hskip, simpleKey?_bare h hr, Option.bind_some]
    split
    · next he => exact absurd (by rw [he]; rfl) hdot
    · rfl
  rw [key?, hparts]
  rfl

/-- What a line of a text may hold. -/
inductive TextLine where
  | blank
  | comment (s : String)
  | header (name : String)
  | number (name : String) (digits : List Char)
  | quote (name s : String)

namespace TextLine

def print : TextLine → List Char
  | blank => ['\n']
  | comment s => '#' :: (s.toList ++ ['\n'])
  | header name => '[' :: (name.toList ++ [']', '\n'])
  | number name digits => name.toList ++ ' ' :: '=' :: ' ' :: (digits ++ ['\n'])
  | quote name s => name.toList ++ ' ' :: '=' :: ' ' :: '"' :: (s.toList ++ ['"', '\n'])

/-- A line that says what it is meant to say. -/
def Readable : TextLine → Prop
  | blank => True
  | comment s => ∀ c ∈ s.toList, isPlain c = true
  | header name => Bare name.toList
  | number name digits => Bare name.toList ∧ Numeral digits
  | quote name s => Bare name.toList ∧ Verbatim s.toList

instance : DecidablePred Readable
  | blank => inferInstanceAs (Decidable True)
  | comment s => List.decidableBAll (isPlain · = true) s.toList
  | header name => inferInstanceAs (Decidable (Bare name.toList))
  | number name digits => inferInstanceAs (Decidable (Bare name.toList ∧ Numeral digits))
  | quote name s => inferInstanceAs (Decidable (Bare name.toList ∧ Verbatim s.toList))

/-- What a line does to the table under way and to all that has been read. -/
def apply (path : List String) (es : Entries) : TextLine → Option (List String × Entries)
  | blank | comment _ => some (path, es)
  | header name => (es.openTable name).map ([name], ·)
  | number name digits => set name (.int (ofDigits 10 digits))
  | quote name s => set name (.text s)
where
  set (name : String) (value : Data) : Option (List String × Entries) :=
    (es.atPath (Entries.addDotted name value []) path).map (path, ·)

end TextLine

theorem lineEnd?_newline (r : List Char) : lineEnd? ('\n' :: r) = some r := by
  simp [lineEnd?, skipBlank, isBlank, skipComment, newline?]

theorem lineEnd?_comment (h : ∀ c ∈ cs, isPlain c = true) (r : List Char) :
    lineEnd? ('#' :: (cs ++ '\n' :: r)) = some r := by
  have hdrop : (cs ++ '\n' :: r).dropWhile isPlain = '\n' :: r := by
    rw [List.dropWhile_append_of_pos h]
    exact List.dropWhile_cons_of_neg (by decide)
  rw [lineEnd?, skipBlank_of_not_blank (by decide), skipComment, hdrop]
  rfl

/-- A key with a value, however it is written, sets the value in the table under way. -/
theorem readLines_entry {name : String} (h : Bare name.toList) (path : List String) (es : Entries)
    (hcs : skipBlank cs = cs) :
    readLines (n + 1) path es (name.toList ++ ' ' :: '=' :: ' ' :: cs) =
      (readValue (2 * (cs.length + 1) + 2) 0 cs).bind fun (value, r) =>
        (es.atPath (Entries.addDotted name value []) path).bind fun es =>
          (lineEnd? r).bind fun r => readLines n path es r := by
  have hkey := key?_bare (r := ' ' :: '=' :: ' ' :: cs) h (by simp; decide)
    (by simp [skipBlank, isBlank])
  rw [String.ofList_toList] at hkey
  have hskip : skipBlank (' ' :: cs) = cs := by
    rw [skipBlank, List.dropWhile_cons_of_pos (by decide)]
    exact hcs
  obtain ⟨c, name', hc⟩ := List.exists_cons_of_ne_nil h.1
  rw [hc] at h hkey ⊢
  obtain ⟨hblank, _, _, hbracket, hhash, hnewline, hreturn⟩ :=
    not_mark_of_isBareKey (h.2 c List.mem_cons_self)
  rw [List.cons_append] at hkey ⊢
  rw [readLines, skipBlank_of_not_blank hblank]
  split
  · next he => cases he
  · next he => exact absurd (List.cons.inj he).1 hbracket
  · next he => exact absurd (List.cons.inj he).1 hhash
  · have hrest : skipBlank (' ' :: '=' :: ' ' :: cs) = '=' :: ' ' :: cs := rfl
    simp only [newline?_none hnewline hreturn, hkey, hrest, List.length_cons, hskip]
    cases readValue (2 * (cs.length + 1) + 2) 0 cs with
    | none => rfl
    | some x =>
      simp only [Option.bind_some]
      cases es.atPath (Entries.addDotted name x.1 []) path with
      | none => rfl
      | some es' => cases lineEnd? x.2 <;> rfl

/-- A value that ends with its line is set, and reading goes on after the line. -/
theorem readLines_value {name : String} {value : Data} (h : Bare name.toList) (path : List String)
    (es : Entries) (hcs : skipBlank cs = cs)
    (hvalue : ∀ fuel, readValue (fuel + 1) 0 cs = some (value, '\n' :: r)) :
    readLines (n + 1) path es (name.toList ++ ' ' :: '=' :: ' ' :: cs) =
      (TextLine.apply.set path es name value).bind fun (path, es) => readLines n path es r := by
  rw [readLines_entry h path es hcs, hvalue, TextLine.apply.set]
  simp only [Option.bind_some, lineEnd?_newline]
  cases es.atPath (Entries.addDotted name value []) path <;> rfl

theorem header?_bare {name : String} (h : Bare name.toList) (r : List Char) :
    header? ('[' :: (name.toList ++ ']' :: r)) = some ((false, [], name), r) := by
  have hkey := key?_bare (r := ']' :: r) h (by simp; decide) (by simp [skipBlank, isBlank])
  rw [String.ofList_toList] at hkey
  obtain ⟨c, name', hc⟩ := List.exists_cons_of_ne_nil h.1
  rw [hc] at h hkey ⊢
  obtain ⟨_, _, _, hbracket, _⟩ := not_mark_of_isBareKey (h.2 c List.mem_cons_self)
  unfold header?
  split
  · next he => exact absurd (List.cons.inj (List.cons.inj he).2).1 hbracket
  · next he =>
    rw [← (List.cons.inj he).2, hkey]
    rfl
  · next hne => exact absurd rfl (hne _)

theorem readLines_line {l : TextLine} (h : l.Readable) (path : List String) (es : Entries)
    (r : List Char) : readLines (n + 1) path es (l.print ++ r) =
      (l.apply path es).bind fun (path, es) => readLines n path es r := by
  cases l with
  | blank =>
    rw [TextLine.print, List.singleton_append, readLines]
    simp [skipBlank, isBlank, newline?, TextLine.apply]
  | comment s =>
    have hskip : skipBlank ('#' :: (s.toList ++ '\n' :: r)) = '#' :: (s.toList ++ '\n' :: r) :=
      skipBlank_of_not_blank (by decide)
    simp only [TextLine.print, List.cons_append, List.append_assoc, List.nil_append, readLines, hskip,
      lineEnd?_comment h]
    rfl
  | header name =>
    have hskip : skipBlank ('[' :: (name.toList ++ ']' :: '\n' :: r)) =
        '[' :: (name.toList ++ ']' :: '\n' :: r) :=
      skipBlank_of_not_blank (by decide)
    simp only [TextLine.print, List.cons_append, List.append_assoc, List.nil_append, readLines, hskip,
      header?_bare h, lineEnd?_newline, TextLine.apply, Entries.atPath, Bool.false_eq_true, if_false]
    cases es.openTable name <;> rfl
  | number name digits =>
    obtain ⟨hname, hdigits⟩ := h
    simpa [TextLine.print, TextLine.apply] using readLines_value hname path es
      (skipBlank_numeral hdigits r) (fun fuel => readValue_numeral hdigits r)
  | quote name s =>
    obtain ⟨hname, hs⟩ := h
    simpa [TextLine.print, TextLine.apply] using readLines_value hname path es
      (skipBlank_of_not_blank (by decide)) (fun fuel => readValue_verbatim hs r)

/-- What lines do, one after the other. -/
def TextLine.applyAll (path : List String) (es : Entries) : List TextLine → Option (List String × Entries)
  | [] => some (path, es)
  | l :: ls => (l.apply path es).bind fun (path, es) => applyAll path es ls

/-- Lines that can be read do what they are meant to do, whatever follows them. -/
theorem readLines_written {ls : List TextLine} (h : ∀ l ∈ ls, l.Readable) (path : List String)
    (es : Entries) (r : List Char) :
    readLines (n + ls.length) path es (ls.flatMap TextLine.print ++ r) =
      (TextLine.applyAll path es ls).bind fun (path, es) => readLines n path es r := by
  induction ls generalizing path es with
  | nil => rfl
  | cons l ls ih =>
    obtain ⟨hl, hls⟩ := List.forall_mem_cons.mp h
    rw [List.flatMap_cons, List.append_assoc, List.length_cons, ← Nat.add_assoc,
      readLines_line hl, TextLine.applyAll]
    cases l.apply path es with
    | none => rfl
    | some x => exact ih hls x.1 x.2

/-- A text that is read at all, and begins with lines that can be read, is read line by line. -/
theorem readLines_eq_some {ls : List TextLine} {path : List String} {es es' : Entries}
    (h : ∀ l ∈ ls, l.Readable)
    (hes : readLines n path es (ls.flatMap TextLine.print ++ r) = some es') :
    ∃ m path₁ es₁, TextLine.applyAll path es ls = some (path₁, es₁) ∧
      readLines m path₁ es₁ r = some es' := by
  induction ls generalizing n path es with
  | nil => exact ⟨n, path, es, rfl, hes⟩
  | cons l ls ih =>
    obtain ⟨hl, hls⟩ := List.forall_mem_cons.mp h
    cases n with
    | zero => cases hes
    | succ n =>
      rw [List.flatMap_cons, List.append_assoc, readLines_line hl] at hes
      obtain ⟨⟨path₁, es₁⟩, happly, hes⟩ := Option.bind_eq_some_iff.mp hes
      obtain ⟨m, path₂, es₂, hall, hrest⟩ := ih hls hes
      refine ⟨m, path₂, es₂, ?_, hrest⟩
      rw [TextLine.applyAll, happly]
      exact hall

/-- Every line has a first character, which is no mark of byte order. -/
theorem print_eq_cons {l : TextLine} (h : l.Readable) : ∃ c cs, l.print = c :: cs ∧ c ≠ '\uFEFF' := by
  have hbare : ∀ {name : List Char}, Bare name → ∀ r, ∃ c cs, name ++ r = c :: cs ∧ c ≠ '\uFEFF' := by
    intro name h r
    obtain ⟨c, name, rfl⟩ := List.exists_cons_of_ne_nil h.1
    refine ⟨c, name ++ r, rfl, ?_⟩
    exact ne_of_kind (h.2 c List.mem_cons_self) (by decide)
  cases l with
  | blank => exact ⟨_, _, rfl, by decide⟩
  | comment => exact ⟨_, _, rfl, by decide⟩
  | header => exact ⟨_, _, rfl, by decide⟩
  | number => exact hbare h.1 _
  | quote => exact hbare h.1 _

theorem length_le_length_print {ls : List TextLine} (h : ∀ l ∈ ls, l.Readable) :
    ls.length ≤ (ls.flatMap TextLine.print).length := by
  induction ls with
  | nil => exact Nat.le_refl _
  | cons l ls ih =>
    obtain ⟨hl, hls⟩ := List.forall_mem_cons.mp h
    obtain ⟨c, cs, hprint, -⟩ := print_eq_cons hl
    have := ih hls
    simp only [List.flatMap_cons, hprint, List.length_cons, List.length_append]
    omega

/-- A text that begins with a line is read from its first character on. -/
theorem read_of_line {l : TextLine} (h : l.Readable) {s : String} (hs : s.toList = l.print ++ cs) :
    read s = (readLines (s.toList.length + 1) [] [] s.toList).map fun es => .map (entriesToData es) := by
  obtain ⟨c, cs', hprint, hne⟩ := print_eq_cons h
  rw [hprint] at hs
  unfold read
  split
  · next he => exact absurd (List.cons.inj (hs.symm.trans he)).1 hne
  · rfl

namespace TextLine

variable {k : String} {path path' : List String} {es es' sub : Entries} {origin : Origin}
  {l : TextLine} {ls : List TextLine}

theorem apply_grows (h : l.apply path es = some (path', es')) : es.Grows es' := by
  cases l with
  | blank | comment =>
    cases h
    exact .refl es
  | header name =>
    obtain ⟨es₁, hopen, he⟩ := Option.map_eq_some_iff.mp h
    cases he
    exact Entries.openTable_grows hopen
  | number | quote =>
    obtain ⟨es₁, hadd, he⟩ := Option.map_eq_some_iff.mp h
    cases he
    exact Entries.atPath_grows (fun _ _ => Entries.addDotted_grows) hadd

theorem applyAll_grows (h : applyAll path es ls = some (path', es')) : es.Grows es' := by
  induction ls generalizing path es with
  | nil =>
    cases h
    exact .refl _
  | cons l ls ih =>
    obtain ⟨⟨path₁, es₁⟩, happly, hall⟩ := Option.bind_eq_some_iff.mp h
    exact (apply_grows happly).trans (ih hall)

/-- The values that lines set, the first of them in a table. -/
def settings (k : String) : List TextLine → List (List String × Data)
  | [] => []
  | header k :: ls => settings k ls
  | number name digits :: ls => ([k, name], .int (ofDigits 10 digits)) :: settings k ls
  | quote name s :: ls => ([k, name], .text s) :: settings k ls
  | _ :: ls => settings k ls

/-- A value is set in the table under way. -/
theorem apply_set {name : String} {d : Data} (hk : es.get? k = some (.table origin sub))
    (h : apply.set [k] es name d = some (path', es')) :
    path' = [k] ∧ (∃ sub', es'.get? k = some (.table origin sub')) ∧ es'.value? [k, name] = some d := by
  obtain ⟨es₁, hadd, he⟩ := Option.map_eq_some_iff.mp h
  cases he
  rw [Entries.atPath, hk] at hadd
  obtain ⟨sub', hsub, rfl⟩ := Option.map_eq_some_iff.mp hadd
  have hget : Entries.get? k (Entries.set k (.table origin sub') es) = some (.table origin sub') := by
    rw [Entries.get?_set, if_pos rfl]
  refine ⟨rfl, ⟨sub', hget⟩, ?_⟩
  change Entries.add name d sub = some sub' at hsub
  unfold Entries.add at hsub
  split at hsub
  · cases hsub
    have hname := Entries.get?_set name name (.value d) sub
    rw [if_pos rfl] at hname
    rw [Entries.value?, hget]
    exact congrArg (Option.bind · (Node.value? [])) hname
  · cases hsub

/-- What lines set is there when they have been read. -/
theorem value?_of_applyAll (hk : es.get? k = some (.table origin sub))
    (h : applyAll [k] es ls = some (path', es')) :
    ∀ x ∈ settings k ls, es'.value? x.1 = some x.2 := by
  induction ls generalizing k es origin sub with
  | nil => exact fun x hx => absurd hx List.not_mem_nil
  | cons l ls ih =>
    obtain ⟨⟨path₁, es₁⟩, happly, hall⟩ := Option.bind_eq_some_iff.mp h
    -- A value that is set stays as it is, and the lines after it are in the same table.
    have hset : ∀ {name d}, apply.set [k] es name d = some (path₁, es₁) →
        ∀ x ∈ ([k, name], d) :: settings k ls, es'.value? x.1 = some x.2 := by
      intro name d hset
      obtain ⟨rfl, ⟨sub', hk'⟩, hvalue⟩ := apply_set hk hset
      rw [List.forall_mem_cons]
      exact ⟨(applyAll_grows hall).keeps _ _ hvalue, ih hk' hall⟩
    cases l with
    | blank | comment =>
      cases happly
      exact ih hk hall
    | header name =>
      obtain ⟨es₂, hopen, he⟩ := Option.map_eq_some_iff.mp happly
      cases he
      obtain ⟨sub', hsub⟩ := Entries.get?_openTable hopen
      exact ih hsub hall
    | number => exact hset happly
    | quote => exact hset happly

end TextLine
end Mastership.Data.Toml
