import FieldBinder.Proofs.Source.Name

/-!
# Texts and characters as literals

Escapes, characters and raw texts are told from what follows them by themselves (`Delimits`).  A
quoted text is too, although a scanner looks at the character behind the white space that its lines
go on with (`delimits_quoted?`, `delimits_character?`).
-/

namespace FieldBinder.Literal

open Text Lexeme

/-- Whether what a scanner takes from a text is taken again, whatever follows it. -/
def Delimits (scan : List Char → Scan) : Prop :=
  ∀ cs t r, scan cs = some (t, r) → cs = t ++ r ∧ ∀ x, scan (t ++ x) = some (t, x)

variable {cs t r : List Char}

/-- A scanner behind characters that are taken before it. -/
theorem Delimits.opened {scan : List Char → Scan} (hscan : Delimits scan) (opening : List Char)
    (h : (scan cs).map (fun (t, r') => (opening ++ t, r')) = some (t, r)) :
    opening ++ cs = t ++ r ∧ ∃ u, t = opening ++ u ∧ ∀ x,
      (scan (u ++ x)).map (fun (t, r') => (opening ++ t, r')) = some (t, x) := by
  obtain ⟨⟨u, r'⟩, hu, heq⟩ := Option.map_eq_some_iff.1 h
  cases heq
  obtain ⟨rfl, hx⟩ := hscan _ _ _ hu
  exact ⟨by simp, u, rfl, fun x => by rw [hx x]; rfl⟩

/-! ### Escapes -/

theorem codePoint?_append {value len v : Nat} (h : codePoint? value len cs = some (t, v, r)) :
    cs = t ++ r ∧ ∀ x, codePoint? value len (t ++ x) = some (t, v, x) := by
  induction cs generalizing value len t with
  | nil => cases h
  | cons c cs ih =>
    rw [codePoint?] at h
    split at h
    · next hc =>
      split at h
      · next hv =>
        cases h
        exact ⟨rfl, fun x => by rw [List.singleton_append, codePoint?, if_pos hc, if_pos hv]⟩
      · cases h
    next hc =>
    split at h
    · -- Underscores between the digits are read over and change neither value nor length.
      next hgap =>
      obtain ⟨⟨u, v', r'⟩, hu, heq⟩ := Option.map_eq_some_iff.1 h
      cases heq
      obtain ⟨hcs, hx⟩ := ih hu
      refine ⟨by rw [hcs, List.cons_append], fun x => ?_⟩
      rw [List.cons_append, codePoint?, if_neg hc, if_pos hgap, hx x]
      rfl
    next hgap =>
    split at h
    · next d hd =>
      split at h
      · cases h
      next hlen =>
      obtain ⟨⟨u, v', r'⟩, hu, heq⟩ := Option.map_eq_some_iff.1 h
      cases heq
      obtain ⟨hcs, hx⟩ := ih hu
      refine ⟨by rw [hcs, List.cons_append], fun x => ?_⟩
      rw [List.cons_append, codePoint?, if_neg hc, if_neg hgap, hd]
      simp only [if_neg hlen, hx x, Option.map_some]
    · cases h

theorem delimits_escape? (f : Flavour) : Delimits (escape? f) := by
  intro cs t r h
  rw [escape?.eq_def] at h
  split at h
  · cases h
  next c cs =>
  split at h
  · next hc =>
    -- two hexadecimal digits
    split at h
    · next a b r' =>
      split at h
      · next va vb ha hb =>
        split at h
        · cases h
        · next hv =>
          cases h
          refine ⟨rfl, fun x => ?_⟩
          rw [escape?.eq_def]
          simp only [List.cons_append, List.nil_append, if_pos hc, ha, hb, if_neg hv]
      · cases h
    · cases h
  next hx =>
  split at h
  · next hc =>
    cases h
    refine ⟨rfl, fun x => ?_⟩
    rw [List.singleton_append, escape?.eq_def]
    simp only [if_neg hx, if_pos hc]
  next hsimple =>
  split at h
  · next hc =>
    cases h
    refine ⟨rfl, fun x => ?_⟩
    rw [List.singleton_append, escape?.eq_def]
    simp only [if_neg hx, if_neg hsimple, if_pos hc]
  next hzero =>
  split at h
  · next hc =>
    -- a code point in braces
    split at h
    · next r' =>
      split at h
      · next u v r'' hu =>
        split at h
        · cases h
        next hv =>
        cases h
        obtain ⟨hcs, hu'⟩ := codePoint?_append hu
        refine ⟨by rw [hcs]; rfl, fun x => ?_⟩
        rw [escape?.eq_def]
        simp only [List.cons_append, if_neg hx, if_neg hsimple, if_neg hzero, if_pos hc, hu' x,
          if_neg hv]
      · cases h
    · cases h
  · cases h

/-! ### Quoted text -/

/-- White space at the start of a line ends at a character that is read again. -/
theorem lineContinuation?_append (h : lineContinuation? cs = some (t, r)) :
    cs = t ++ r ∧ ∃ c r', r = c :: r' ∧ ¬ (c = '\n' ∨ c = '\r') ∧
      ∀ x, lineContinuation? (t ++ c :: x) = some (t, c :: x) := by
  fun_induction lineContinuation? cs generalizing t with
  | case1 => cases h
  | case2 r0 ih =>
    obtain ⟨⟨u, r1⟩, hu, heq⟩ := Option.map_eq_some_iff.1 h
    cases heq
    obtain ⟨hcs, c, r', hr, hc, hx⟩ := ih hu
    refine ⟨by rw [hcs]; rfl, c, r', hr, hc, fun x => ?_⟩
    rw [List.cons_append, List.cons_append, lineContinuation?, hx x]
    rfl
  | case3 => cases h
  | case4 c r0 hpair hreturn hgap ih =>
    obtain ⟨⟨u, r1⟩, hu, heq⟩ := Option.map_eq_some_iff.1 h
    cases heq
    obtain ⟨hcs, d, r', hr, hd, hx⟩ := ih hu
    refine ⟨by rw [hcs]; rfl, d, r', hr, hd, fun x => ?_⟩
    -- The equation of a blank, with the pattern of a carriage return before a line feed excluded.
    have hstep {y : List Char} : lineContinuation? (c :: y) =
        (lineContinuation? y).map fun (t, r') => (c :: t, r') := by
      rw [lineContinuation?]
      · rw [if_neg hreturn, if_pos hgap]
      · rintro y' rfl -
        exact hreturn rfl
    rw [List.cons_append, hstep, hx x]
    rfl
  | case5 c r0 hpair hreturn hgap =>
    cases h
    refine ⟨rfl, c, r0, rfl, fun hc => ?_, fun x => ?_⟩
    · rcases hc with rfl | rfl
      · -- The run stopped at `c`, so `c` is no blank; a line feed or a carriage return would be.
        exact hgap (.inr (.inr rfl))
      · exact hreturn rfl
    rw [List.nil_append, lineContinuation?]
    · rw [if_neg hreturn, if_neg hgap]
    · rintro y' rfl -
      exact hreturn rfl

/-- What a backslash takes is taken again before the same next character. -/
theorem exists_escaped {f : Flavour} {acc : List Char} {n : Nat}
    (h : cooked f acc (n + 1) ('\\' :: cs) = some (t, r)) :
    ∃ s rest, cs = s ++ rest ∧ cooked f (s.reverse ++ '\\' :: acc) n rest = some (t, r) ∧
      ∀ c y, rest = c :: y → ∀ y' acc' m,
        cooked f acc' (m + 1) ('\\' :: (s ++ c :: y')) =
          cooked f (s.reverse ++ '\\' :: acc') m (c :: y') := by
  -- What follows the backslash decides alone between a line continuation and an escape.
  have hstep (d : Char) (y acc' : List Char) (m : Nat) :
      cooked f acc' (m + 1) ('\\' :: d :: y) =
        if d = '\n' ∨ d = '\r' then
          (lineContinuation? (d :: y)).bind fun (t, r') => cooked f (t.reverse ++ '\\' :: acc') m r'
        else
          (escape? f (d :: y)).bind fun (t, r') => cooked f (t.reverse ++ '\\' :: acc') m r' := by
    rw [cooked.eq_def]
    rfl
  cases cs with
  | nil =>
    rw [cooked.eq_def] at h
    cases h
  | cons d cs =>
  rw [hstep] at h
  split at h
  · next hline =>
    obtain ⟨⟨s, rest⟩, hs, hcooked⟩ := Option.bind_eq_some_iff.1 h
    -- The skipped blanks run up to the character behind them, so that one has to be kept.
    obtain ⟨heq, c, y, rfl, hc, hx⟩ := lineContinuation?_append hs
    refine ⟨s, c :: y, heq, hcooked, fun c' y₀ hrest y' acc' m => ?_⟩
    cases hrest
    cases s with
    | nil =>
      obtain ⟨rfl, -⟩ := List.cons.inj heq
      exact absurd hline hc
    | cons d' s =>
      obtain ⟨rfl, -⟩ := List.cons.inj heq
      rw [List.cons_append, hstep, if_pos hline, ← List.cons_append, hx y']
      rfl
  · next hline =>
    obtain ⟨⟨s, rest⟩, hs, hcooked⟩ := Option.bind_eq_some_iff.1 h
    -- An escape tells its own end: whatever stands behind it, it is read again.
    obtain ⟨heq, hx⟩ := delimits_escape? f _ _ _ hs
    refine ⟨s, rest, heq, hcooked, fun c y _ y' acc' m => ?_⟩
    cases s with
    | nil => cases hx []
    | cons d' s =>
      obtain ⟨rfl, -⟩ := List.cons.inj heq
      rw [List.cons_append, hstep, if_neg hline, ← List.cons_append, hx (c :: y')]
      rfl

/-- A quoted text ends with its quote.  What is taken before it in one step, a character, the end of
a line or an escape, is taken again before the same next character. -/
theorem cooked_step {f : Flavour} {acc : List Char} {n : Nat}
    (h : cooked f acc (n + 1) cs = some (t, r)) :
    (cs = '"' :: r ∧ t = acc.reverse ++ ['"']) ∨
      ∃ c s rest, cs = c :: s ++ rest ∧ cooked f ((c :: s).reverse ++ acc) n rest = some (t, r) ∧
        ∀ d y, rest = d :: y → ∀ y' acc' m,
          cooked f acc' (m + 1) (c :: s ++ d :: y') =
            cooked f ((c :: s).reverse ++ acc') m (d :: y') := by
  cases cs with
  | nil =>
    rw [cooked.eq_def] at h
    cases h
  | cons c cs =>
  -- The four ways to go on: an escape, the closing quote, a carriage return, a plain character.
  by_cases hslash : c = '\\'
  · subst hslash
    obtain ⟨s, rest, rfl, hcooked, hstep⟩ := exists_escaped h
    refine .inr ⟨'\\', s, rest, rfl, by simpa using hcooked, fun d y hrest y' acc' m => ?_⟩
    rw [List.cons_append, hstep d y hrest, List.reverse_cons, List.append_assoc,
      List.singleton_append]
  rw [cooked.eq_def] at h
  dsimp only at h
  split at h
  · next hquote =>
    cases h
    exact .inl ⟨by rw [hquote], by simp [hquote]⟩
  next hquote =>
  split at h
  · next hreturn =>
    split at h
    · next r' =>
      refine .inr ⟨c, ['\n'], r', rfl, h, fun d y _ y' acc' m => ?_⟩
      rw [cooked.eq_def]
      simp [hreturn]
    · cases h
  next hreturn =>
  split at h
  · next hadmits =>
    refine .inr ⟨c, [], cs, rfl, h, fun d y _ y' acc' m => ?_⟩
    rw [cooked.eq_def]
    simp [hquote, hreturn, hslash, hadmits]
  · cases h

/-- A quoted text ends with its quote, whatever follows. -/
theorem cooked_append {f : Flavour} {acc : List Char} {n : Nat}
    (h : cooked f acc n cs = some (t, r)) :
    ∃ c u, t = acc.reverse ++ c :: u ∧ cs = c :: u ++ r ∧
      ∀ x acc' m, u.length < m →
        cooked f acc' m (c :: u ++ x) = some (acc'.reverse ++ c :: u, x) := by
  -- the number bounds the steps, of which each takes a character at least
  induction n generalizing acc cs t with
  | zero =>
    rw [cooked] at h
    cases h
  | succ n ih =>
  obtain ⟨rfl, rfl⟩ | ⟨c, s, rest, rfl, hrest, hstep⟩ := cooked_step h
  · refine ⟨'"', [], rfl, rfl, fun x acc' m hm => ?_⟩
    obtain ⟨m, rfl⟩ := Nat.exists_eq_add_one_of_ne_zero (Nat.ne_zero_of_lt hm)
    rw [cooked.eq_def]
    simp
  · obtain ⟨d, u, rfl, rfl, hx⟩ := ih hrest
    refine ⟨c, s ++ d :: u, by simp, by simp, fun x acc' m hm => ?_⟩
    obtain ⟨m, rfl⟩ := Nat.exists_eq_add_one_of_ne_zero (Nat.ne_zero_of_lt hm)
    simp only [List.length_append, List.length_cons] at hm
    calc cooked f acc' (m + 1) (c :: (s ++ d :: u) ++ x)
        = cooked f acc' (m + 1) (c :: s ++ d :: (u ++ x)) := by simp
      _ = cooked f ((c :: s).reverse ++ acc') m (d :: (u ++ x)) := hstep d _ rfl _ _ _
      _ = some (acc'.reverse ++ c :: (s ++ d :: u), x) := by
        rw [← List.cons_append, hx x _ m (by omega)]
        simp

/-- A raw text ends with its quote and hash signs, whatever follows. -/
theorem raw_append {f : Flavour} {hashes : Nat} {acc : List Char}
    (h : raw f hashes acc cs = some (t, r)) :
    ∃ u, t = acc.reverse ++ u ∧ cs = u ++ r ∧ hashes < u.length ∧
      ∀ x acc', raw f hashes acc' (u ++ x) = some (acc'.reverse ++ u, x) := by
  fun_induction raw f hashes acc cs with
  | case1 => cases h
  | case2 acc r0 ih =>
    obtain ⟨u, rfl, rfl, hlen, hx⟩ := ih h
    refine ⟨'\r' :: '\n' :: u, by simp, by simp, by simp; omega, fun x acc' => ?_⟩
    rw [List.cons_append, List.cons_append, raw, hx]
    simp
  | case3 acc c r0 hpair close hclose =>
    cases h
    obtain ⟨rfl, hclose⟩ := hclose
    obtain ⟨r1, rfl⟩ := List.isPrefixOf_iff_prefix.1 hclose
    have hlength : close.length = hashes := List.length_replicate
    refine ⟨'"' :: close, by simp, by simp [← hlength], by simp [hlength], fun x acc' => ?_⟩
    have hprefix : close.isPrefixOf (close ++ x) = true :=
      List.isPrefixOf_iff_prefix.2 ⟨x, rfl⟩
    rw [List.cons_append, raw]
    · rw [if_pos ⟨rfl, hprefix⟩, List.drop_left' hlength, List.reverse_cons, List.append_assoc]
      rfl
    · rintro y h -
      cases h
  | case4 => cases h
  | case5 acc c r0 hpair close hclose hreturn hadmits ih =>
    obtain ⟨u, rfl, rfl, hlen, hx⟩ := ih h
    refine ⟨c :: u, by simp, by simp, by simp; omega, fun x acc' => ?_⟩
    -- the end was not reached here, and it is not with another text behind it
    have hclose' : ¬ (c = '"' ∧ close.isPrefixOf (u ++ x) = true) := by
      rintro ⟨hc, hprefix⟩
      refine hclose ⟨hc, ?_⟩
      rw [List.isPrefixOf_iff_prefix] at hprefix ⊢
      have : close <+: u := List.prefix_of_prefix_length_le hprefix (List.prefix_append u x)
        (by rw [List.length_replicate]; omega)
      exact this.trans (List.prefix_append u r)
    rw [List.cons_append, raw]
    · rw [if_neg hclose', if_neg hreturn, if_pos hadmits, hx]
      simp
    · rintro y rfl -
      exact hreturn rfl
  | case6 => cases h

theorem delimits_rawOpening? (f : Flavour) : Delimits (rawOpening? f) := by
  intro cs t r h
  rw [rawOpening?] at h
  have hsplit := List.takeWhile_append_dropWhile (p := (· == '#')) (l := cs)
  -- The hashes in front of the quote are counted, and as many have to close the literal.
  have hall : cs.takeWhile (· == '#') = List.replicate (cs.takeWhile (· == '#')).length '#' :=
    List.eq_replicate_of_mem fun c hc => by simpa using List.mem_takeWhile_imp hc
  generalize (cs.takeWhile (· == '#')).length = hashes at h hall
  split at h
  · next r0 hdrop =>
    split at h
    · cases h
    next hmany =>
    obtain ⟨u, rfl, rfl, -, hx⟩ := raw_append h
    rw [hdrop, hall] at hsplit
    refine ⟨by rw [← hsplit]; simp, fun x => ?_⟩
    have hcs : ('"' :: List.replicate hashes '#').reverse ++ u ++ x =
        List.replicate hashes '#' ++ '"' :: (u ++ x) := by simp
    obtain ⟨htake, hdrop⟩ := takeWhile_append_of_all (p := (· == '#'))
      (l := List.replicate hashes '#') (x := '"' :: (u ++ x)) (by simp) (by simp)
    rw [rawOpening?, hcs, htake, hdrop, List.length_replicate]
    simp only [if_neg hmany]
    rw [hx]
  · cases h

theorem delimits_quoted? : Delimits quoted? := by
  -- The fuel is the length of the text, which is enough for any text the step lemma reads.
  have hcooked {f : Flavour} {acc cs t r : List Char}
      (h : cooked f acc cs.length cs = some (t, r)) :
      acc.reverse ++ cs = t ++ r ∧ ∃ u, t = acc.reverse ++ u ∧ ∀ x,
        cooked f acc (u ++ x).length (u ++ x) = some (t, x) := by
    obtain ⟨c, u, rfl, rfl, hx⟩ := cooked_append h
    refine ⟨by simp, c :: u, rfl, fun x => hx x _ _ ?_⟩
    simp only [List.cons_append, List.length_cons, List.length_append]
    omega
  intro cs t r h
  unfold quoted? at h
  split at h
  · obtain ⟨hcs, u, rfl, hx⟩ := hcooked h
    exact ⟨hcs, hx⟩
  · obtain ⟨hcs, u, rfl, hx⟩ := (delimits_rawOpening? _).opened ['r'] h
    exact ⟨hcs, hx⟩
  · obtain ⟨hcs, u, rfl, hx⟩ := hcooked h
    exact ⟨hcs, hx⟩
  · obtain ⟨hcs, u, rfl, hx⟩ := (delimits_rawOpening? _).opened ['b', 'r'] h
    exact ⟨hcs, hx⟩
  · obtain ⟨hcs, u, rfl, hx⟩ := hcooked h
    exact ⟨hcs, hx⟩
  · obtain ⟨hcs, u, rfl, hx⟩ := (delimits_rawOpening? _).opened ['c', 'r'] h
    exact ⟨hcs, hx⟩
  · cases h

/-! ### Characters and bytes -/

theorem delimits_single? (f : Flavour) : Delimits (single? f) := by
  intro cs t r h
  cases cs with
  | nil => cases h
  | cons c cs =>
  rw [single?] at h
  split at h
  · next u r' hcontent =>
    cases h
    split at hcontent
    · -- The content is an escape or one character; both are read before the closing quote is.
      next hslash =>
      obtain ⟨⟨v, r''⟩, hv, heq⟩ := Option.map_eq_some_iff.1 hcontent
      cases heq
      obtain ⟨rfl, hx⟩ := delimits_escape? f _ _ _ hv
      refine ⟨by simp, fun x => ?_⟩
      rw [List.cons_append, List.cons_append, single?, List.append_assoc, hx]
      simp [hslash]
    · next hslash =>
      split at hcontent
      · next hadmits =>
        cases hcontent
        refine ⟨by simp, fun x => ?_⟩
        simp [single?, hslash, hadmits]
      · cases hcontent
  · cases h

theorem delimits_character? : Delimits character? := by
  intro cs t r h
  unfold character? at h
  split at h
  · obtain ⟨hcs, u, rfl, hx⟩ := (delimits_single? _).opened ['\''] h
    exact ⟨hcs, hx⟩
  · obtain ⟨hcs, u, rfl, hx⟩ := (delimits_single? _).opened ['b', '\''] h
    exact ⟨hcs, hx⟩
  · cases h

end FieldBinder.Literal
