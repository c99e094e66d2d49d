import Mathlib.Data.List.Basic
import Mastership.Data.Toml

namespace Mastership.Data.Toml

/-- A character that stands for itself in a quoted text. -/
def isLiteral (c : Char) : Bool := isPlain c && c != '"' && c != '\\'

/-- Characters that stand for themselves. -/
def Verbatim (cs : List Char) : Prop := ∀ c ∈ cs, isLiteral c = true

instance (cs : List Char) : Decidable (Verbatim cs) := List.decidableBAll (isLiteral · = true) cs

variable {c : Char} {cs r v acc : List Char} {n : Nat}

theorem isLiteral_iff : isLiteral c = true ↔ isPlain c = true ∧ c ≠ '"' ∧ c ≠ '\\' := by
  simp [isLiteral, and_assoc]

theorem verbatim_cons : Verbatim (c :: cs) ↔ isLiteral c = true ∧ Verbatim cs :=
  List.forall_mem_cons

theorem basicText_of_isLiteral (h : isLiteral c = true) :
    basicText (n + 1) acc (c :: r) = basicText n (c :: acc) r := by
  obtain ⟨hplain, hquote, hslash⟩ := isLiteral_iff.mp h
  simp [basicText, hplain]

theorem basicText_verbatim (h : Verbatim cs) (hn : cs.length < n) :
    basicText n acc (cs ++ '"' :: r) = some (acc.reverse ++ cs, r) := by
  induction cs generalizing n acc with
  | nil =>
    obtain ⟨n, rfl⟩ := Nat.exists_eq_add_of_lt hn
    simp [basicText]
  | cons c cs ih =>
    obtain ⟨hc, hcs⟩ := verbatim_cons.mp h
    rw [List.length_cons] at hn
    obtain ⟨n, rfl⟩ : ∃ k, n = k + 1 := ⟨n - 1, by omega⟩
    rw [List.cons_append, basicText_of_isLiteral hc, ih hcs (by omega)]
    simp

/-- A text that does not begin with three quotes is one of a single line. -/
theorem quotedText?_single (h : ∀ r, cs ≠ '"' :: '"' :: r) :
    quotedText? ('"' :: cs) =
      (basicText (cs.length + 1) [] cs).map fun (s, r) => (String.ofList s, r) := by
  unfold quotedText?
  split
  · next r he => exact absurd (List.cons.inj he).2 (h r)
  · next r _ he => rw [(List.cons.inj he).2]
  · next he => exact absurd (List.cons.inj he).1 (by decide)
  · next he => exact absurd (List.cons.inj he).1 (by decide)
  · next hne _ _ => exact absurd rfl (hne cs)

theorem not_quotes_of_verbatim (h : Verbatim cs) (hr : r.head? ≠ some '"') (xs : List Char) :
    cs ++ '"' :: r ≠ '"' :: '"' :: xs := by
  intro he
  cases cs with
  | nil =>
    obtain ⟨-, rfl⟩ := List.cons.inj he
    exact hr rfl
  | cons c cs =>
    obtain ⟨rfl, -⟩ := List.cons.inj he
    exact absurd rfl (isLiteral_iff.mp (verbatim_cons.mp h).1).2.1

/-- Characters that stand for themselves are read back from between quotes, unless another quote
follows. -/
theorem quotedText?_verbatim (h : Verbatim cs) (hr : r.head? ≠ some '"') :
    quotedText? ('"' :: (cs ++ '"' :: r)) = some (String.ofList cs, r) := by
  have hn : cs.length < (cs ++ '"' :: r).length + 1 := by
    rw [List.length_append]
    omega
  rw [quotedText?_single (not_quotes_of_verbatim h hr), basicText_verbatim h hn]
  rfl

/-- What stands between quotes on one line, and what it stands for. An escape is longer than the
character that it stands for. -/
inductive Spells : List Char → List Char → Prop
  | nil : Spells [] []
  | literal {c : Char} {raw value : List Char} :
      isLiteral c = true → Spells raw value → Spells (c :: raw) (c :: value)
  | escape {es raw value : List Char} (c : Char) :
      es ≠ [] → '\n' ∉ es → Spells raw value → Spells ('\\' :: (es ++ raw)) (c :: value)

namespace Spells

variable {raw value : List Char}

theorem newline_not_mem (h : Spells raw value) : '\n' ∉ raw := by
  induction h with
  | nil => exact List.not_mem_nil
  | literal hc _ ih =>
    rw [List.mem_cons, not_or]
    refine ⟨?_, ih⟩
    rintro rfl
    revert hc
    decide
  | escape c _ hes _ ih => simp [hes, ih]

theorem length_le (h : Spells raw value) : value.length ≤ raw.length := by
  induction h with
  | nil => exact Nat.le_refl _
  | literal _ _ ih => exact Nat.succ_le_succ ih
  | escape c _ _ _ ih =>
    simp only [List.length_cons, List.length_append]
    omega

/-- Every escape makes a text longer than what it stands for. -/
theorem verbatim_of_length (h : Spells raw value) (hl : raw.length ≤ value.length) :
    Verbatim raw := by
  induction h with
  | nil => exact fun c hc => absurd hc List.not_mem_nil
  | literal hc _ ih => exact verbatim_cons.mpr ⟨hc, ih (Nat.le_of_succ_le_succ hl)⟩
  | escape c hne _ hraw _ =>
    have hle := hraw.length_le
    have hpos := List.length_pos_iff.mpr hne
    simp only [List.length_cons, List.length_append] at hl
    omega

end Spells

theorem hexDigits_of_hex? {ds : List Char} {n m : Nat}
    (h : ds.foldlM (fun n c => (Json.hexDigit? c).map (n * 16 + ·)) n = some m) :
    ∀ d ∈ ds, (Json.hexDigit? d).isSome := by
  induction ds generalizing n with
  | nil => exact fun d hd => absurd hd List.not_mem_nil
  | cons d ds ih =>
    obtain ⟨k, hk, hrest⟩ := Option.bind_eq_some_iff.mp h
    obtain ⟨x, hx, -⟩ := Option.map_eq_some_iff.mp hk
    exact List.forall_mem_cons.mpr ⟨by simp [hx], ih hrest⟩

theorem newline_not_mem_of_hex? {ds : List Char} (h : Json.hex? ds = some n) : '\n' ∉ ds :=
  fun hmem => absurd (hexDigits_of_hex? h _ hmem) (by decide)

/-- An escape takes at least one character after the backslash, and stays on its line. -/
theorem escape?_eq_some (h : escape? cs = some (c, r)) :
    ∃ es, cs = es ++ r ∧ es ≠ [] ∧ '\n' ∉ es := by
  unfold escape? at h
  split at h
  · next a b c' d r' =>
    obtain ⟨n, hn, hc⟩ := Option.bind_eq_some_iff.mp h
    obtain ⟨_, _, he⟩ := Option.map_eq_some_iff.mp hc
    cases he
    have hhex := newline_not_mem_of_hex? hn
    exact ⟨['u', a, b, c', d], rfl, by simp, by simpa using hhex⟩
  · next a b c' d e f g i r' =>
    obtain ⟨n, hn, hc⟩ := Option.bind_eq_some_iff.mp h
    obtain ⟨_, _, he⟩ := Option.map_eq_some_iff.mp hc
    cases he
    have hhex := newline_not_mem_of_hex? hn
    exact ⟨['U', a, b, c', d, e, f, g, i], rfl, by simp, by simpa using hhex⟩
  · cases h
  · next c' r' _ _ _ =>
    obtain ⟨_, hc, he⟩ := Option.map_eq_some_iff.mp h
    cases he
    refine ⟨[c'], rfl, by simp, ?_⟩
    rw [List.mem_singleton]
    rintro rfl
    cases hc
  · cases h

/-- A text of one line ends at the first quote that is not escaped. -/
theorem basicText_spells (h : basicText n acc cs = some (v, r)) :
    ∃ raw value, cs = raw ++ '"' :: r ∧ v = acc.reverse ++ value ∧ Spells raw value := by
  fun_induction basicText n acc cs with
  | case1 | case4 | case6 | case7 => cases h
  | case2 n acc r' =>
    cases h
    exact ⟨[], [], rfl, (List.append_nil _).symm, .nil⟩
  | case3 n acc r' c r'' hescape ih =>
    obtain ⟨es, rfl, hne, hline⟩ := escape?_eq_some hescape
    obtain ⟨raw, value, rfl, rfl, hraw⟩ := ih h
    exact ⟨'\\' :: (es ++ raw), c :: value, by simp, by simp, .escape c hne hline hraw⟩
  | case5 n acc c r' hquote hslash hplain ih =>
    obtain ⟨raw, value, rfl, rfl, hraw⟩ := ih h
    have hc : isLiteral c = true := isLiteral_iff.mpr ⟨hplain, hquote, hslash⟩
    exact ⟨c :: raw, c :: value, rfl, by simp, .literal hc hraw⟩

theorem newline?_eq_some (h : newline? cs = some r) : ∃ es, cs = es ++ r ∧ es ≠ [] := by
  unfold newline? at h
  split at h
  · cases h
    exact ⟨['\n'], rfl, by simp⟩
  · cases h
    exact ⟨['\r', '\n'], rfl, by simp⟩
  · cases h

theorem skipFolded_suffix (cs : List Char) : skipFolded cs <:+ cs := by
  fun_induction skipFolded cs with
  | case1 r ih => exact ih.trans (List.suffix_append ['\r', '\n'] r)
  | case2 c r _ _ ih => exact ih.trans (List.suffix_cons c r)
  | case3 | case4 => exact List.suffix_refl _

theorem foldLine?_suffix (h : foldLine? cs = some r) : r <:+ cs := by
  obtain ⟨r', hnewline, rfl⟩ := Option.map_eq_some_iff.mp h
  obtain ⟨es, hes, -⟩ := newline?_eq_some hnewline
  have hskip : skipBlank cs <:+ cs := List.dropWhile_suffix _
  exact (skipFolded_suffix r').trans ((hes ▸ List.suffix_append es r').trans hskip)

/-- A text of several lines ends at three quotes, and is at most two characters longer than what stands
before them. -/
theorem basicTexts_closes (h : basicTexts n acc cs = some (v, r)) :
    ∃ raw r', cs = raw ++ '"' :: '"' :: '"' :: r' ∧ v.length ≤ acc.length + raw.length + 2 := by
  fun_induction basicTexts n acc cs with
  | case1 | case5 | case8 | case9 => cases h
  | case2 n acc r' =>
    cases h
    refine ⟨[], r', rfl, ?_⟩
    simp only [List.length_reverse, List.length_append, List.length_replicate]
    have := Nat.min_le_left 2 (r'.takeWhile (· = '"')).length
    simp only [List.length_nil]
    omega
  | case3 n acc r' r'' hfold ih =>
    obtain ⟨raw, rest, rfl, hle⟩ := ih h
    obtain ⟨es, rfl⟩ := foldLine?_suffix hfold
    refine ⟨'\\' :: (es ++ raw), rest, by simp, ?_⟩
    simp only [List.length_cons, List.length_append] at hle ⊢
    omega
  | case4 n acc r' _ c r'' hescape ih =>
    obtain ⟨es, rfl, hne, -⟩ := escape?_eq_some hescape
    obtain ⟨raw, rest, rfl, hle⟩ := ih h
    refine ⟨'\\' :: (es ++ raw), rest, by simp, ?_⟩
    simp only [List.length_cons, List.length_append] at hle ⊢
    omega
  | case6 n acc c r' _ _ r'' hnewline ih =>
    obtain ⟨es, hes, hne⟩ := newline?_eq_some hnewline
    obtain ⟨raw, rest, rfl, hle⟩ := ih h
    have hpos := List.length_pos_iff.mpr hne
    refine ⟨es ++ raw, rest, by simp [hes], ?_⟩
    simp only [List.length_cons, List.length_append] at hle ⊢
    omega
  | case7 n acc c r' _ _ _ hplain ih =>
    obtain ⟨raw, rest, rfl, hle⟩ := ih h
    refine ⟨c :: raw, rest, rfl, ?_⟩
    simp only [List.length_cons] at hle ⊢
    omega

/-- Three quotes that are on no later line are on this one. -/
theorem quotes_before_newline {before line rest : List Char} (hrest : ¬ ['"', '"', '"'] <:+: rest)
    (h : line ++ '\n' :: rest = before ++ '"' :: '"' :: '"' :: r) :
    ∃ after, line = before ++ '"' :: '"' :: '"' :: after := by
  rcases List.append_eq_append_iff.mp h with ⟨xs, -, hxs⟩ | ⟨xs, hline, hxs⟩
  · cases xs with
    | nil => cases hxs
    | cons x xs =>
      obtain ⟨-, rfl⟩ := List.cons.inj hxs
      exact absurd ⟨xs, r, by simp⟩ hrest
  · match xs, hxs with
    | [], hxs => cases hxs
    | [_], hxs => cases hxs
    | [_, _], hxs => cases hxs
    | _ :: _ :: _ :: after, hxs =>
      cases hxs
      exact ⟨after, hline⟩

/-- What is read back from between quotes on one line as it was written stands for itself. -/
theorem verbatim_of_basicText {rest : List Char}
    (h : basicText n [] (cs ++ '"' :: '\n' :: rest) = some (cs, r)) : Verbatim cs := by
  obtain ⟨raw, value, hraw, rfl, hspells⟩ := basicText_spells h
  have hle : cs.length ≤ raw.length := hspells.length_le
  rcases List.append_eq_append_iff.mp hraw with ⟨xs, rfl, hxs⟩ | ⟨xs, rfl, -⟩
  · match xs, hxs with
    | [], _ => simpa using hspells.verbatim_of_length (by simp)
    | [_], hxs => cases hxs
    | _ :: _ :: xs, hxs =>
      -- The text would have run past the end of its line.
      cases hxs
      exact absurd (by simp) hspells.newline_not_mem
  · rw [List.length_append] at hle
    obtain rfl : xs = [] := List.eq_nil_of_length_eq_zero (by omega)
    rw [List.append_nil] at hspells ⊢
    exact hspells.verbatim_of_length (Nat.le_refl _)

/-- What is read back from between quotes at the end of a line as it was written stands for itself, if
no three quotes follow on later lines. -/
theorem verbatim_of_quotedText? {rest : List Char} (hrest : ¬ ['"', '"', '"'] <:+: rest)
    (h : quotedText? ('"' :: (cs ++ '"' :: '\n' :: rest)) = some (String.ofList cs, r)) :
    Verbatim cs := by
  by_cases hquotes : ∃ xs, cs ++ '"' :: '\n' :: rest = '"' :: '"' :: xs
  · obtain ⟨xs, hxs⟩ := hquotes
    rw [hxs] at h
    obtain ⟨⟨v, r'⟩, hread, he⟩ := Option.map_eq_some_iff.mp h
    obtain rfl : v = cs := String.ofList_inj.mp (congrArg Prod.fst he)
    obtain ⟨raw, r'', hraw, hle⟩ := basicTexts_closes hread
    obtain ⟨es, hes⟩ : ∃ es, xs = es ++ skipNewline xs := by
      unfold skipNewline
      cases hn : newline? xs with
      | none => exact ⟨[], rfl⟩
      | some ys =>
        obtain ⟨es, hes, -⟩ := newline?_eq_some hn
        exact ⟨es, hes⟩
    -- The closing quotes are on the line, and the text between is too short.
    have hline : (v ++ ['"']) ++ '\n' :: rest =
        ('"' :: '"' :: (es ++ raw)) ++ '"' :: '"' :: '"' :: r'' := by
      rw [List.append_assoc, List.singleton_append, hxs, hes, hraw]
      simp
    obtain ⟨after, hafter⟩ := quotes_before_newline hrest hline
    have hlength := congrArg List.length hafter
    simp only [List.length_append, List.length_cons, List.length_nil] at hlength hle
    omega
  · rw [quotedText?_single (fun xs hxs => hquotes ⟨xs, hxs⟩)] at h
    obtain ⟨⟨v, r'⟩, hread, he⟩ := Option.map_eq_some_iff.mp h
    obtain rfl : v = cs := String.ofList_inj.mp (congrArg Prod.fst he)
    exact verbatim_of_basicText hread

end Mastership.Data.Toml
