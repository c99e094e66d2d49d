import Mathlib.Data.List.TakeWhile
import Mathlib.Data.Option.Basic
import Mastership.Proofs.Quotations

namespace Mastership.Data.Toml

/-- What was read up to a place lies on one line. -/
def OnLine (cs r : List Char) : Prop := ∃ es, cs = es ++ r ∧ '\n' ∉ es

variable {c : Char} {cs r r' rest v acc : List Char} {n : Nat} {d : Data}

namespace OnLine

theorem refl (cs : List Char) : OnLine cs cs := ⟨[], rfl, List.not_mem_nil⟩

theorem trans (h : OnLine cs r) (h' : OnLine r r') : OnLine cs r' := by
  obtain ⟨es, rfl, hes⟩ := h
  obtain ⟨es', rfl, hes'⟩ := h'
  exact ⟨es ++ es', (List.append_assoc ..).symm, by simp [hes, hes']⟩

theorem cons (hc : c ≠ '\n') (h : OnLine cs r) : OnLine (c :: cs) r := by
  obtain ⟨es, rfl, hes⟩ := h
  exact ⟨c :: es, rfl, by simp [hc.symm, hes]⟩

theorem token (es : List Char) (hes : '\n' ∉ es) (r : List Char) : OnLine (es ++ r) r := ⟨es, rfl, hes⟩

/-- The end of a later line is still to come. -/
theorem suffix (h : OnLine cs r) (hrest : '\n' :: rest <:+ cs) : '\n' :: rest <:+ r := by
  obtain ⟨es, rfl, hes⟩ := h
  obtain ⟨before, hbefore⟩ := hrest
  rcases List.append_eq_append_iff.mp hbefore with ⟨xs, rfl, hxs⟩ | ⟨xs, -, hxs⟩
  · cases xs with
    | nil => exact hxs ▸ List.suffix_refl _
    | cons x xs =>
      obtain ⟨rfl, -⟩ := List.cons.inj hxs
      exact absurd (by simp) hes
  · exact ⟨xs, hxs.symm⟩

end OnLine

theorem suffix_tail (hc : c ≠ '\n') (hrest : '\n' :: rest <:+ c :: r) : '\n' :: rest <:+ r :=
  (OnLine.cons hc (.refl r)).suffix hrest

theorem onLine_dropWhile {p : Char → Bool} (hp : p '\n' = false) (cs : List Char) :
    OnLine cs (cs.dropWhile p) := by
  refine ⟨cs.takeWhile p, List.takeWhile_append_dropWhile.symm, fun hmem => ?_⟩
  rw [List.mem_takeWhile_imp hmem] at hp
  cases hp

theorem onLine_skipBlank (cs : List Char) : OnLine cs (skipBlank cs) := onLine_dropWhile (by decide) cs

theorem skipBlank_of_not_blank (h : isBlank c = false) : skipBlank (c :: cs) = c :: cs := by
  simp [skipBlank, h]

theorem newline?_none (hnewline : c ≠ '\n') (hreturn : c ≠ '\r') : newline? (c :: r) = none := by
  unfold newline?
  split
  · next he => exact absurd (List.cons.inj he).1 hnewline
  · next he => exact absurd (List.cons.inj he).1 hreturn
  · rfl

/-- A character of a kind is none of another kind. -/
theorem ne_of_kind {p : Char → Bool} {m : Char} (h : p c = true) (hm : p m = false) : c ≠ m := by
  rintro rfl
  rw [hm] at h
  cases h

theorem onLine_escape? (h : escape? cs = some (c, r)) : OnLine cs r := by
  obtain ⟨es, hes, -, hline⟩ := escape?_eq_some h
  exact ⟨es, hes, hline⟩

theorem isPlain_ne (h : isPlain c = true) : c ≠ '\n' := ne_of_kind h (by decide)

theorem onLine_basicText (h : basicText n acc cs = some (v, r)) : OnLine cs r := by
  fun_induction basicText n acc cs with
  | case1 | case4 | case6 | case7 => cases h
  | case2 =>
    cases h
    exact .cons (by decide) (.refl _)
  | case3 n acc r' c r'' hescape ih => exact .cons (by decide) ((onLine_escape? hescape).trans (ih h))
  | case5 n acc c r' _ _ hplain ih => exact .cons (isPlain_ne hplain) (ih h)

theorem onLine_literalText (h : literalText acc cs = some (v, r)) : OnLine cs r := by
  fun_induction literalText acc cs with
  | case1 =>
    cases h
    exact .cons (by decide) (.refl _)
  | case2 acc c r' _ hplain ih => exact .cons (isPlain_ne hplain) (ih h)
  | case3 | case4 => cases h

theorem onLine_moreDigits {isDigit : Char → Bool} (hd : isDigit '\n' = false) (cs : List Char) :
    OnLine cs (moreDigits isDigit cs).2 := by
  fun_induction moreDigits isDigit cs with
  | case1 c r hc ds r' hr ih =>
    rw [hr] at ih
    exact .cons (by decide) (.cons (ne_of_kind hc hd) ih)
  | case2 | case4 | case5 => exact .refl _
  | case3 c r _ hc ds r' hr ih =>
    rw [hr] at ih
    exact .cons (ne_of_kind hc hd) ih

theorem onLine_digits? {isDigit : Char → Bool} (hd : isDigit '\n' = false)
    (h : digits? isDigit cs = some (v, r)) : OnLine cs r := by
  unfold digits? at h
  split at h
  · next c r' =>
    split at h
    · next hc =>
      cases h
      exact .cons (ne_of_kind hc hd) (onLine_moreDigits hd r')
    · cases h
  · cases h

theorem sign_none (hplus : c ≠ '+') (hminus : c ≠ '-') : sign (c :: cs) = (false, c :: cs) := by
  unfold sign
  split
  · next he => exact absurd (List.cons.inj he).1 hplus
  · next he => exact absurd (List.cons.inj he).1 hminus
  · rfl

theorem onLine_sign (cs : List Char) : OnLine cs (sign cs).2 := by
  unfold sign
  split
  · exact .cons (by decide) (.refl _)
  · exact .cons (by decide) (.refl _)
  · exact .refl _

theorem onLine_decimal? (h : decimal? cs = some (v, r)) : OnLine cs r := by
  unfold decimal? at h
  split at h
  · cases h
    exact .cons (by decide) (.refl _)
  · exact onLine_digits? (by decide) h

theorem onLine_based {base : Nat} {isDigit : Char → Bool} (hd : isDigit '\n' = false)
    (h : integer?.based base isDigit cs = some (d, r)) : OnLine cs r := by
  obtain ⟨⟨ds, r'⟩, hdigits, hfit⟩ := Option.bind_eq_some_iff.mp h
  obtain ⟨_, _, he⟩ := Option.map_eq_some_iff.mp hfit
  cases he
  exact onLine_digits? hd hdigits

theorem onLine_integer? (h : integer? cs = some (d, r)) : OnLine cs r := by
  unfold integer? at h
  split at h
  · exact (OnLine.token ['0', 'x'] (by decide) _).trans (onLine_based (by decide) h)
  · exact (OnLine.token ['0', 'o'] (by decide) _).trans (onLine_based (by decide) h)
  · exact (OnLine.token ['0', 'b'] (by decide) _).trans (onLine_based (by decide) h)
  · obtain ⟨⟨ds, r'⟩, hdecimal, hfit⟩ := Option.bind_eq_some_iff.mp h
    obtain ⟨_, _, he⟩ := Option.map_eq_some_iff.mp hfit
    cases he
    exact (onLine_sign cs).trans (onLine_decimal? hdecimal)

theorem onLine_fraction (cs : List Char) : OnLine cs (fraction cs).2 := by
  unfold fraction
  split
  · split
    · next hdigits => exact .cons (by decide) (onLine_digits? (by decide) hdigits)
    · exact .refl _
  · exact .refl _

theorem onLine_exponent (cs : List Char) : OnLine cs (exponent cs).2 := by
  unfold exponent
  split
  · next c r' =>
    split
    · next hc =>
      have hne : c ≠ '\n' := by
        rintro rfl
        revert hc
        decide
      dsimp only
      split
      · next hdigits => exact .cons hne ((onLine_sign r').trans (onLine_digits? (by decide) hdigits))
      · exact .refl _
    · exact .refl _
  · exact .refl _

theorem onLine_float? (h : float? cs = some (d, r)) : OnLine cs r := by
  simp only [float?, Option.bind_eq_bind, Option.bind_eq_some_iff] at h
  obtain ⟨⟨ds, r'⟩, hdecimal, h⟩ := h
  split at h
  · cases h
  · split at h
    · cases h
    · cases h
      exact ((onLine_sign cs).trans (onLine_decimal? hdecimal)).trans
        ((onLine_fraction r').trans (onLine_exponent _))

theorem onLine_special? (h : special? cs = some (d, r)) : OnLine cs r := by
  have hsign := onLine_sign cs
  unfold special? at h
  split at h
  · next he =>
    cases h
    rw [he] at hsign
    exact hsign.trans (.token ['i', 'n', 'f'] (by decide) _)
  · next he =>
    cases h
    rw [he] at hsign
    exact hsign.trans (.token ['n', 'a', 'n'] (by decide) _)
  · cases h

theorem onLine_fixed? {width m : Nat} (h : fixed? width cs = some (m, r)) : OnLine cs r := by
  unfold fixed? at h
  dsimp only at h
  split at h
  · next hall =>
    cases h
    refine ⟨cs.take width, (List.take_append_drop width cs).symm, fun hmem => ?_⟩
    exact absurd (List.all_eq_true.mp hall.2 _ hmem) (by decide)
  · cases h

theorem onLine_within? {low high m : Nat} (h : within? low high cs = some (m, r)) : OnLine cs r := by
  obtain ⟨⟨k, r'⟩, hfixed, hwithin⟩ := Option.bind_eq_some_iff.mp h
  dsimp only at hwithin
  split at hwithin
  · cases hwithin
    exact onLine_fixed? hfixed
  · cases hwithin

theorem onLine_expect? (hc : c ≠ '\n') (h : expect? c cs = some r) : OnLine cs r := by
  unfold expect? at h
  split at h
  · split at h
    · next he =>
      cases h
      exact .cons (he ▸ hc) (.refl _)
    · cases h
  · cases h

theorem onLine_day? (h : day? cs = some r) : OnLine cs r := by
  simp only [day?, Option.bind_eq_bind, Option.bind_eq_some_iff, Prod.exists] at h
  obtain ⟨_, _, hyear, _, hdash, _, _, hmonth, _, hdash', _, _, hday, he⟩ := h
  cases he
  exact (onLine_fixed? hyear).trans <| (onLine_expect? (by decide) hdash).trans <|
    (onLine_within? hmonth).trans <| (onLine_expect? (by decide) hdash').trans (onLine_within? hday)

theorem onLine_time? (h : time? cs = some r) : OnLine cs r := by
  simp only [time?, Option.bind_eq_bind, Option.bind_eq_some_iff, Prod.exists] at h
  obtain ⟨_, _, hhour, _, hcolon, _, _, hminute, _, hcolon', _, r', hsecond, h⟩ := h
  have hline : OnLine cs r' := (onLine_within? hhour).trans <|
    (onLine_expect? (by decide) hcolon).trans <| (onLine_within? hminute).trans <|
      (onLine_expect? (by decide) hcolon').trans (onLine_within? hsecond)
  split at h
  · split at h
    · cases h
      exact hline
    · cases h
      exact hline.trans (.cons (by decide) (onLine_dropWhile (by decide) _))
  · cases h
    exact hline

theorem onLine_offset? (h : offset? cs = some r) : OnLine cs r := by
  unfold offset? at h
  split at h
  · cases h
    exact .cons (by decide) (.refl _)
  · cases h
    exact .cons (by decide) (.refl _)
  · next c r' _ _ =>
    split at h
    · next hc =>
      have hne : c ≠ '\n' := by
        rintro rfl
        revert hc
        decide
      simp only [Option.bind_eq_bind, Option.bind_eq_some_iff, Prod.exists] at h
      obtain ⟨_, _, hhour, _, hcolon, _, _, hminute, he⟩ := h
      cases he
      exact .cons hne <| (onLine_within? hhour).trans <|
        (onLine_expect? (by decide) hcolon).trans (onLine_within? hminute)
    · cases h
  · cases h

theorem onLine_timeOfDay (cs : List Char) : OnLine cs (timeOfDay cs) := by
  unfold timeOfDay
  split
  · next c r =>
    split
    · next hc =>
      have hne : c ≠ '\n' := by
        rintro rfl
        revert hc
        decide
      split
      · next r' htime =>
        cases hoffset : offset? r' with
        | none => exact .cons hne (onLine_time? htime)
        | some r'' => exact .cons hne ((onLine_time? htime).trans (onLine_offset? hoffset))
      · exact .refl _
    · exact .refl _
  · exact .refl _

theorem onLine_moment? (h : moment? cs = some (d, r)) : OnLine cs r := by
  obtain ⟨r', hrest, he⟩ := Option.map_eq_some_iff.mp h
  cases he
  split at hrest
  · next hday =>
    cases hrest
    exact (onLine_day? hday).trans (onLine_timeOfDay _)
  · exact onLine_time? hrest

theorem onLine_numeral? (h : numeral? cs = some (d, r)) : OnLine cs r := by
  rcases (Option.orElse_eq_some ..).mp h with h | ⟨-, h⟩
  · exact onLine_moment? h
  rcases (Option.orElse_eq_some ..).mp h with h | ⟨-, h⟩
  · exact onLine_float? h
  rcases (Option.orElse_eq_some ..).mp h with h | ⟨-, h⟩
  · exact onLine_special? h
  · exact onLine_integer? h

theorem not_mem_of_isBareKey {marks : List Char} (h : isBareKey c = true)
    (hmarks : marks.any isBareKey = false) : c ∉ marks :=
  fun hmem => absurd h (List.any_eq_false.mp hmarks c hmem)

theorem onLine_simpleKey? {k : String} (h : simpleKey? cs = some (k, r)) : OnLine cs r := by
  unfold simpleKey? at h
  split at h
  · obtain ⟨⟨v, r'⟩, htext, he⟩ := Option.map_eq_some_iff.mp h
    cases he
    exact .cons (by decide) (onLine_basicText htext)
  · obtain ⟨⟨v, r'⟩, htext, he⟩ := Option.map_eq_some_iff.mp h
    cases he
    exact .cons (by decide) (onLine_literalText htext)
  · dsimp only at h
    split at h
    · cases h
    · cases h
      exact onLine_dropWhile (by decide) _

theorem onLine_keyParts {ks : List String} (h : keyParts n cs = some (ks, r)) : OnLine cs r := by
  induction n generalizing cs ks with
  | zero => cases h
  | succ n ih =>
    obtain ⟨⟨k, r'⟩, hkey, h⟩ := Option.bind_eq_some_iff.mp h
    have hline : OnLine cs (skipBlank r') :=
      ((onLine_skipBlank cs).trans (onLine_simpleKey? hkey)).trans (onLine_skipBlank r')
    dsimp only at h
    split at h
    · next hdot =>
      obtain ⟨⟨ks', r''⟩, hparts, he⟩ := Option.map_eq_some_iff.mp h
      cases he
      rw [hdot] at hline
      exact hline.trans (.cons (by decide) (ih hparts))
    · cases h
      exact hline

theorem onLine_key? {k : List String × String} (h : key? cs = some (k, r)) : OnLine cs r := by
  obtain ⟨⟨ks, r'⟩, hparts, h⟩ := Option.bind_eq_some_iff.mp h
  dsimp only at h
  split at h
  · cases h
  · obtain ⟨_, _, he⟩ := Option.map_eq_some_iff.mp h
    cases he
    exact onLine_keyParts hparts

theorem onLine_header? {k : Bool × List String × String} (h : header? cs = some (k, r)) :
    OnLine cs r := by
  unfold header? at h
  split at h
  · split at h
    · next hkey =>
      cases h
      exact (OnLine.token ['[', '['] (by decide) _).trans <|
        (onLine_key? hkey).trans (.token [']', ']'] (by decide) _)
    · cases h
  · split at h
    · next hkey =>
      cases h
      exact (OnLine.token ['['] (by decide) _).trans <|
        (onLine_key? hkey).trans (.token [']'] (by decide) _)
    · cases h
  · cases h

end Mastership.Data.Toml
