import Mastership.Proofs.Additions
import Mastership.Proofs.Lexemes

namespace Mastership.Data.Toml

open Entries

/-- What follows the end of a line, where nothing can end that began before: no text of several lines is
closed in it, and in a list there is no value and no mark. -/
structure Barrier (rest : List Char) : Prop where
  quotes : ¬ ['"', '"', '"'] <:+: rest
  apostrophes : ¬ ['\x27', '\x27', '\x27'] <:+: rest
  unread : ∀ fuel n depth, readValue n depth (skipLoose fuel rest) = none
  unmarked : ∀ fuel r, skipLoose fuel rest ≠ ']' :: r ∧ skipLoose fuel rest ≠ ',' :: r

variable {c : Char} {cs r rest v acc : List Char} {n depth : Nat} {d : Data}

/-- What is closed by marks that no later line has is closed before it. -/
theorem suffix_of_marks {marks : List Char} (hmarks : ¬ marks <:+: rest) (hrest : '\n' :: rest <:+ cs)
    (hr : r <:+ cs) (h : marks <:+: r) : '\n' :: rest <:+ r := by
  rcases List.suffix_or_suffix_of_suffix hrest hr with hlater | hearlier
  · exact hlater
  · rcases List.suffix_cons_iff.mp hearlier with rfl | hearlier
    · exact List.suffix_refl _
    · exact absurd (h.trans hearlier.isInfix) hmarks

theorem onLine_closeQuotes {quote : Char} (hquote : quote ≠ '\n') (acc r : List Char) :
    OnLine r (closeQuotes quote acc r).2 := by
  refine ⟨_, (List.take_append_drop _ r).symm, fun hmem => ?_⟩
  have hle := Nat.min_le_right 2 (r.takeWhile (· = quote)).length
  have hextra : (r.takeWhile (· = quote) ++ r.dropWhile (· = quote)).take _ = _ :=
    List.take_append_of_le_length hle
  rw [List.takeWhile_append_dropWhile] at hextra
  rw [hextra] at hmem
  have := List.mem_takeWhile_imp (List.mem_of_mem_take hmem)
  exact hquote (of_decide_eq_true this).symm

theorem newline?_suffix (h : newline? cs = some r) : r <:+ cs := by
  obtain ⟨es, rfl, -⟩ := newline?_eq_some h
  exact List.suffix_append es r

theorem skipNewline_suffix (cs : List Char) : skipNewline cs <:+ cs := by
  unfold skipNewline
  cases h : newline? cs with
  | none => exact List.suffix_refl _
  | some r => exact newline?_suffix h

theorem basicTexts_quotes (h : basicTexts n acc cs = some (v, r)) : ['"', '"', '"'] <:+: cs := by
  obtain ⟨raw, r', rfl, -⟩ := basicTexts_closes h
  exact ⟨raw, r', by simp⟩

theorem suffix_basicTexts (hquotes : ¬ ['"', '"', '"'] <:+: rest) (hrest : '\n' :: rest <:+ cs)
    (h : basicTexts n acc cs = some (v, r)) : '\n' :: rest <:+ r := by
  fun_induction basicTexts n acc cs with
  | case1 | case5 | case8 | case9 => cases h
  | case2 n acc r' =>
    cases h
    exact ((OnLine.token ['"', '"', '"'] (by decide) r').trans
      (onLine_closeQuotes (by decide) acc r')).suffix hrest
  | case3 n acc r' r'' hfold ih =>
    have hr : r'' <:+ '\\' :: r' := (foldLine?_suffix hfold).trans (List.suffix_cons _ r')
    exact ih (suffix_of_marks hquotes hrest hr (basicTexts_quotes h)) h
  | case4 n acc r' _ c r'' hescape ih =>
    exact ih ((OnLine.cons (by decide) (onLine_escape? hescape)).suffix hrest) h
  | case6 n acc c r' _ _ r'' hnewline ih =>
    exact ih (suffix_of_marks hquotes hrest (newline?_suffix hnewline) (basicTexts_quotes h)) h
  | case7 n acc c r' _ _ _ hplain ih =>
    exact ih (suffix_tail (isPlain_ne hplain) hrest) h

theorem literalTexts_apostrophes (h : literalTexts n acc cs = some (v, r)) :
    ['\x27', '\x27', '\x27'] <:+: cs := by
  fun_induction literalTexts n acc cs with
  | case1 | case5 | case6 => cases h
  | case2 n acc r' => exact ⟨[], r', rfl⟩
  | case3 n acc c r' _ r'' hnewline ih => exact (ih h).trans (newline?_suffix hnewline).isInfix
  | case4 n acc c r' _ _ _ ih => exact (ih h).trans (List.suffix_cons c r').isInfix

theorem suffix_literalTexts (happs : ¬ ['\x27', '\x27', '\x27'] <:+: rest)
    (hrest : '\n' :: rest <:+ cs) (h : literalTexts n acc cs = some (v, r)) : '\n' :: rest <:+ r := by
  fun_induction literalTexts n acc cs with
  | case1 | case5 | case6 => cases h
  | case2 n acc r' =>
    cases h
    exact ((OnLine.token ['\x27', '\x27', '\x27'] (by decide) r').trans
      (onLine_closeQuotes (by decide) acc r')).suffix hrest
  | case3 n acc c r' _ r'' hnewline ih =>
    exact ih (suffix_of_marks happs hrest (newline?_suffix hnewline) (literalTexts_apostrophes h)) h
  | case4 n acc c r' _ _ hplain ih =>
    exact ih (suffix_tail (isPlain_ne hplain) hrest) h

/-- A quoted text ends before what has no end of it. -/
theorem suffix_quotedText? {s : String} (hquotes : ¬ ['"', '"', '"'] <:+: rest)
    (happs : ¬ ['\x27', '\x27', '\x27'] <:+: rest) (hrest : '\n' :: rest <:+ cs)
    (h : quotedText? cs = some (s, r)) : '\n' :: rest <:+ r := by
  obtain ⟨⟨v, r'⟩, hread, he⟩ := Option.map_eq_some_iff.mp h
  cases he
  split at hread
  · next xs =>
    have hr : skipNewline xs <:+ '"' :: '"' :: '"' :: xs :=
      (skipNewline_suffix xs).trans (List.suffix_append ['"', '"', '"'] xs)
    exact suffix_basicTexts hquotes (suffix_of_marks hquotes hrest hr (basicTexts_quotes hread)) hread
  · exact (OnLine.cons (by decide) (onLine_basicText hread)).suffix hrest
  · next xs =>
    have hr : skipNewline xs <:+ '\x27' :: '\x27' :: '\x27' :: xs :=
      (skipNewline_suffix xs).trans (List.suffix_append ['\x27', '\x27', '\x27'] xs)
    exact suffix_literalTexts happs
      (suffix_of_marks happs hrest hr (literalTexts_apostrophes hread)) hread
  · exact (OnLine.cons (by decide) (onLine_literalText hread)).suffix hrest
  · cases hread

theorem newline?_later (hrest : '\n' :: rest <:+ cs) (h : newline? cs = some r) :
    '\n' :: rest <:+ r ∨ r = rest := by
  have hcons : ∀ {xs}, '\n' :: rest <:+ '\n' :: xs → '\n' :: rest <:+ xs ∨ xs = rest := by
    intro xs hxs
    rcases List.suffix_cons_iff.mp hxs with he | hxs
    · exact .inr (List.cons.inj he).2.symm
    · exact .inl hxs
  unfold newline? at h
  split at h
  · cases h
    exact hcons hrest
  · cases h
    exact hcons (suffix_tail (by decide) hrest)
  · cases h

/-- Blanks and ends of lines are skipped up to the end of the line, or from there on. -/
theorem skipLoose_later (hrest : '\n' :: rest <:+ cs) (n : Nat) :
    '\n' :: rest <:+ skipLoose n cs ∨ ∃ fuel, skipLoose n cs = skipLoose fuel rest := by
  have hblank := (onLine_skipBlank cs).suffix hrest
  fun_induction skipLoose n cs with
  | case1 => exact .inl hrest
  | case2 fuel cs r hcs r' hnewline ih =>
    rw [hcs] at hblank
    have hcomment := (OnLine.cons (by decide) (onLine_dropWhile (p := isPlain) (by decide) r)).suffix hblank
    rcases newline?_later hcomment hnewline with hr' | rfl
    · exact ih hr' ((onLine_skipBlank r').suffix hr')
    · exact .inr ⟨fuel, rfl⟩
  | case3 fuel cs r hcs _ => exact .inl (hcs ▸ hblank)
  | case4 fuel cs r' _ hnewline ih =>
    rcases newline?_later hblank hnewline with hr' | rfl
    · exact ih hr' ((onLine_skipBlank r').suffix hr')
    · exact .inr ⟨fuel, rfl⟩
  | case5 => exact .inl hblank

/-- What is read with so much fuel ends before the rest. -/
structure EndsBefore (rest : List Char) (n : Nat) : Prop where
  value : ∀ {depth cs d r}, '\n' :: rest <:+ cs → readValue n depth cs = some (d, r) →
    '\n' :: rest <:+ r
  items : ∀ {depth items cs d r}, '\n' :: rest <:+ cs → readItems n depth items cs = some (d, r) →
    '\n' :: rest <:+ r
  pairs : ∀ {depth es cs d r}, '\n' :: rest <:+ cs → readPairs n depth es cs = some (d, r) →
    '\n' :: rest <:+ r

namespace EndsBefore

theorem readValue (hb : Barrier rest) (h : EndsBefore rest n) (hrest : '\n' :: rest <:+ cs)
    (hread : readValue (n + 1) depth cs = some (d, r)) : '\n' :: rest <:+ r := by
  unfold Toml.readValue at hread
  split at hread
  · split at hread
    · cases hread
    · exact h.items (suffix_tail (by decide) hrest) hread
  · next r' =>
    have hblank := (OnLine.cons (by decide) (onLine_skipBlank r')).suffix hrest
    split at hread
    · cases hread
    · split at hread
      · next hclose =>
        cases hread
        rw [hclose] at hblank
        exact suffix_tail (by decide) hblank
      · exact h.pairs hblank hread
  · cases hread
    exact (OnLine.token ['t', 'r', 'u', 'e'] (by decide) _).suffix hrest
  · cases hread
    exact (OnLine.token ['f', 'a', 'l', 's', 'e'] (by decide) _).suffix hrest
  · obtain ⟨⟨s, r'⟩, hquoted, he⟩ := Option.map_eq_some_iff.mp hread
    cases he
    exact suffix_quotedText? hb.quotes hb.apostrophes hrest hquoted
  · obtain ⟨⟨s, r'⟩, hquoted, he⟩ := Option.map_eq_some_iff.mp hread
    cases he
    exact suffix_quotedText? hb.quotes hb.apostrophes hrest hquoted
  · exact (onLine_numeral? hread).suffix hrest

theorem readItems (hb : Barrier rest) (h : EndsBefore rest n) {items : List Data}
    (hrest : '\n' :: rest <:+ cs) (hread : readItems (n + 1) depth items cs = some (d, r)) :
    '\n' :: rest <:+ r := by
  have hloose := skipLoose_later hrest cs.length
  unfold Toml.readItems at hread
  split at hread
  · next hclose =>
    cases hread
    rw [hclose] at hloose
    rcases hloose with hloose | ⟨fuel, he⟩
    · exact suffix_tail (by decide) hloose
    · exact absurd he.symm (hb.unmarked fuel _).1
  · split at hread
    · cases hread
    · next d' r' hvalue =>
      have hr' : '\n' :: rest <:+ r' := by
        rcases hloose with hloose | ⟨fuel, he⟩
        · exact h.value hloose hvalue
        · rw [he, hb.unread] at hvalue
          cases hvalue
      rcases skipLoose_later hr' r'.length with hloose' | ⟨fuel, he⟩
      · split at hread
        · next hcomma =>
          rw [hcomma] at hloose'
          exact h.items (suffix_tail (by decide) hloose') hread
        · next hclose =>
          cases hread
          rw [hclose] at hloose'
          exact suffix_tail (by decide) hloose'
        · cases hread
      · split at hread
        · next hcomma => exact absurd (he.symm.trans hcomma) (hb.unmarked fuel _).2
        · next hclose => exact absurd (he.symm.trans hclose) (hb.unmarked fuel _).1
        · cases hread

theorem readPairs (h : EndsBefore rest n) {es : Entries} (hrest : '\n' :: rest <:+ cs)
    (hread : readPairs (n + 1) depth es cs = some (d, r)) : '\n' :: rest <:+ r := by
  unfold Toml.readPairs at hread
  split at hread
  · next r' hkey =>
    have hr' := ((onLine_key? hkey).trans (.cons (by decide) (onLine_skipBlank r'))).suffix hrest
    split at hread
    · cases hread
    · next d' r'' hvalue =>
      have hr'' := (onLine_skipBlank r'').suffix (h.value hr' hvalue)
      split at hread
      · cases hread
      · split at hread
        · next hcomma =>
          rw [hcomma] at hr''
          exact h.pairs (suffix_tail (by decide) hr'') hread
        · next hclose =>
          cases hread
          rw [hclose] at hr''
          exact suffix_tail (by decide) hr''
        · cases hread
  · cases hread

/-- Everything that begins before a barrier ends before it. -/
theorem of_barrier (hb : Barrier rest) (n : Nat) : EndsBefore rest n := by
  induction n with
  | zero =>
    refine ⟨fun _ h => ?_, fun _ h => ?_, fun _ h => ?_⟩
    · cases h
    · cases h
    · cases h
  | succ n ih => exact ⟨readValue hb ih, readItems hb ih, readPairs ih⟩

end EndsBefore

theorem lineEnd?_later (hrest : '\n' :: rest <:+ cs) (h : lineEnd? cs = some r) :
    '\n' :: rest <:+ r ∨ r = rest := by
  have hcomment : '\n' :: rest <:+ skipComment (skipBlank cs) := by
    have hblank := (onLine_skipBlank cs).suffix hrest
    unfold skipComment
    split
    · next r' he =>
      rw [he] at hblank
      exact (OnLine.cons (by decide) (onLine_dropWhile (p := isPlain) (by decide) r')).suffix hblank
    · exact hblank
  unfold lineEnd? at h
  split at h
  · next he =>
    rw [he] at hcomment
    cases List.suffix_nil.mp hcomment
  · exact newline?_later hcomment h

/-- What is read in the end is what had been read by a place and the rest. -/
def Reaches (rest : List Char) (es es' : Entries) : Prop :=
  ∃ n path es₁, es.Grows es₁ ∧ readLines n path es₁ rest = some es'

/-- After each line the rest is still to come, or it is what is read next. -/
theorem Reaches.next {path : List String} {es es₁ es' : Entries} (hgrows : es.Grows es₁)
    (hlater : '\n' :: rest <:+ r → Reaches rest es₁ es') (hr : '\n' :: rest <:+ r ∨ r = rest)
    (h : readLines n path es₁ r = some es') : Reaches rest es es' := by
  rcases hr with hr | rfl
  · obtain ⟨m, path₁, es₂, hgrows', hread⟩ := hlater hr
    exact ⟨m, path₁, es₂, hgrows.trans hgrows', hread⟩
  · exact ⟨n, path, es₁, hgrows, h⟩

/-- Before a barrier one line is read after the other, and what they say is kept. Reading then goes on
at the barrier. -/
theorem readLines_reaches (hb : Barrier rest) {path : List String} {es es' : Entries}
    (hrest : '\n' :: rest <:+ cs) (h : readLines n path es cs = some es') : Reaches rest es es' := by
  have hblank := (onLine_skipBlank cs).suffix hrest
  fun_induction readLines n path es cs with
  | case1 | case3 | case5 | case7 | case9 | case11 | case12 => cases h
  | case2 fuel path es cs hcs =>
    rw [hcs] at hblank
    cases List.suffix_nil.mp hblank
  | case4 fuel path es cs r hcs isList parents name r' hheader step es₁ r'' hend hopen ih =>
    rw [hcs] at hblank
    exact .next (atPath_grows (fun _ _ => openOne_grows) hopen)
      (fun hr => ih hr h ((onLine_skipBlank r'').suffix hr))
      (lineEnd?_later ((onLine_header? hheader).suffix hblank) hend) h
  | case6 fuel path es cs r hcs r' hend ih =>
    rw [hcs] at hblank
    exact .next (.refl es) (fun hr => ih hr h ((onLine_skipBlank r').suffix hr))
      (lineEnd?_later hblank hend) h
  | case8 fuel path es cs r _ _ _ hnewline ih =>
    exact .next (.refl es) (fun hr => ih hr h ((onLine_skipBlank r).suffix hr))
      (newline?_later hblank hnewline) h
  | case10 fuel path es cs parents name r d r' hvalue es₁ r'' hend hadd _ _ _ _ hkey ih =>
    have hr := ((onLine_key? hkey).trans (.cons (by decide) (onLine_skipBlank r))).suffix hblank
    have hr' := (EndsBefore.of_barrier hb _).value hr hvalue
    exact .next (atPath_grows (fun _ _ => addDotted_grows) hadd)
      (fun hr => ih hr h ((onLine_skipBlank r'').suffix hr)) (lineEnd?_later hr' hend) h

theorem numeral?_none (hdigit : c.isDigit = false) (hc : c ∉ ['+', '-', 'i', 'n']) :
    numeral? (c :: r) = none := by
  simp only [List.mem_cons, not_or] at hc
  obtain ⟨hplus, hminus, hi, hn, -⟩ := hc
  have hfixed : ∀ width, fixed? (width + 1) (c :: r) = none := by
    intro width
    simp [fixed?, hdigit]
  have hmoment : moment? (c :: r) = none := by simp [moment?, day?, time?, within?, hfixed]
  have hsign : sign (c :: r) = (false, c :: r) := sign_none hplus hminus
  have hzero : c ≠ '0' := by
    rintro rfl
    cases hdigit
  have hdecimal : decimal? (c :: r) = none := by
    unfold decimal?
    split
    · next he => exact absurd (List.cons.inj he).1 hzero
    · simp [digits?, hdigit]
  have hspecial : special? (c :: r) = none := by
    unfold special?
    rw [hsign]
    split
    · next he => exact absurd (List.cons.inj he).1 hi
    · next he => exact absurd (List.cons.inj he).1 hn
    · rfl
  have hinteger : integer? (c :: r) = none := by
    unfold integer?
    split
    · next he => exact absurd (List.cons.inj he).1 hzero
    · next he => exact absurd (List.cons.inj he).1 hzero
    · next he => exact absurd (List.cons.inj he).1 hzero
    · simp [hsign, hdecimal]
  simp [numeral?, hmoment, float?, hsign, hdecimal, hspecial, hinteger]

theorem skipLoose_none (hblank : isBlank c = false) (hc : c ∉ ['#', '\n', '\r']) (n : Nat) :
    skipLoose n (c :: r) = c :: r := by
  simp only [List.mem_cons, not_or] at hc
  obtain ⟨hhash, hnewline, hreturn, -⟩ := hc
  cases n with
  | zero => rfl
  | succ n =>
    rw [skipLoose, skipBlank_of_not_blank hblank]
    split
    · next he => exact absurd (List.cons.inj he).1 hhash
    · rw [newline?_none hnewline hreturn]

theorem readValue_none (hdigit : c.isDigit = false) (hmark : c ∉ ['[', '\x7b', '"', '\x27', '+'])
    (hletter : c ∉ ['t', 'f', 'i', 'n', '-']) (n depth : Nat) :
    readValue n depth (c :: r) = none := by
  simp only [List.mem_cons, not_or] at hmark hletter
  obtain ⟨hbracket, hbrace, hquote, happ, hplus, -⟩ := hmark
  obtain ⟨ht, hf, hi, hn, hminus, -⟩ := hletter
  cases n with
  | zero => rfl
  | succ n =>
    unfold readValue
    split
    · next he => exact absurd (List.cons.inj he).1 hbracket
    · next he => exact absurd (List.cons.inj he).1 hbrace
    · next he => exact absurd (List.cons.inj he).1 ht
    · next he => exact absurd (List.cons.inj he).1 hf
    · next he => exact absurd (List.cons.inj he).1 hquote
    · next he => exact absurd (List.cons.inj he).1 happ
    · exact numeral?_none hdigit (by simp [hplus, hminus, hi, hn])

/-- An empty line and the header of a table are a barrier, if the name of the table does not begin like a
value. -/
theorem barrier_of_header (hkey : isBareKey c = true) (hdigit : c.isDigit = false)
    (hletter : c ∉ ['t', 'f', 'i', 'n', '-']) (hquotes : ¬ ['"', '"', '"'] <:+: '\n' :: '[' :: c :: r)
    (happs : ¬ ['\x27', '\x27', '\x27'] <:+: '\n' :: '[' :: c :: r) :
    Barrier ('\n' :: '[' :: c :: r) := by
  have hmarks : ∀ {marks : List Char}, marks.any isBareKey = false → c ∉ marks :=
    not_mem_of_isBareKey hkey
  have hblank : isBlank c = false := by
    have : c ∉ [' ', '\t'] := hmarks (by decide)
    simpa [isBlank] using this
  have hbare : ∀ n depth, readValue n depth (c :: r) = none :=
    readValue_none hdigit (hmarks (by decide)) hletter
  have hloose : ∀ n, skipLoose n (c :: r) = c :: r := skipLoose_none hblank (hmarks (by decide))
  have hclose : c ∉ [']'] := hmarks (by decide)
  have hlist : ∀ n depth, readValue n depth ('[' :: c :: r) = none := by
    intro n depth
    match n with
    | 0 => rfl
    | 1 => simp [readValue, readItems]
    | n + 2 =>
      rw [readValue]
      split
      · rfl
      · rw [readItems, hloose]
        split
        · next he => exact absurd (List.mem_singleton.mpr (List.cons.inj he).1) hclose
        · rw [hbare]
  have hfuel : ∀ fuel, skipLoose fuel ('\n' :: '[' :: c :: r) = '\n' :: '[' :: c :: r ∨
      skipLoose fuel ('\n' :: '[' :: c :: r) = '[' :: c :: r := by
    intro fuel
    cases fuel with
    | zero => exact .inl rfl
    | succ fuel =>
      right
      rw [skipLoose]
      exact skipLoose_none (by decide) (by decide) fuel
  refine ⟨hquotes, happs, fun fuel n depth => ?_, fun fuel r' => ?_⟩
  · rcases hfuel fuel with h | h
    · rw [h]
      exact readValue_none (by decide) (by decide) (by decide) n depth
    · rw [h]
      exact hlist n depth
  · rcases hfuel fuel with h | h
    · rw [h]
      simp
    · rw [h]
      simp

end Mastership.Data.Toml
