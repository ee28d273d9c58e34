import FieldBinder.Proofs.Source.Name

/-!
# Suffixes, and numbers with a point or an exponent

What is taken as the suffix of a literal is a suffix by itself (`suffix_spec`).  A number with a
point or an exponent is taken again in front of its suffix (`pointed?_spec`), and a bracket that is
closed behind it changes nothing (`pointed?_append`).
-/

namespace FieldBinder.Literal

open Text Lexeme

/-! ### Suffixes -/

variable {cs t r w x : List Char}

theorem takeWhile_append_stop {p : Char → Bool} (hx : ∀ c ∈ x.head?, p c = false) :
    (w ++ x).takeWhile p = w.takeWhile p ∧ (w ++ x).dropWhile p = w.dropWhile p ++ x := by
  induction w with
  | nil => simpa using takeWhile_append_of_all (l := []) (by simp) hx
  | cons c w ih =>
    by_cases hc : p c = true
    · simp [hc, ih]
    · simp [hc]

theorem head?_dropWhile {p : Char → Bool} : ∀ c ∈ (w.dropWhile p).head?, p c = false := by
  intro c hc
  have := List.head?_dropWhile_not p w
  rw [Option.mem_def.1 hc] at this
  simpa using this

/-- A suffix is what stands in front, and it is a suffix by itself. -/
theorem suffix_spec (r : List Char) :
    r = (suffix r).1 ++ (suffix r).2 ∧ suffix (suffix r).1 = ((suffix r).1, []) ∧
      ((suffix r).1 = [] ∨ (suffix r).1.head? = r.head?) := by
  unfold suffix
  split
  · next c r =>
    split
    · next hc =>
      refine ⟨by simp, ?_, .inr rfl⟩
      simp only [if_pos hc]
      have hall : ∀ d ∈ r.takeWhile isIdentContinue, isIdentContinue d = true :=
        fun d hd => List.mem_takeWhile_imp hd
      rw [List.takeWhile_eq_self_iff.2 hall, List.dropWhile_eq_nil_iff.2 hall]
    · exact ⟨rfl, rfl, .inl rfl⟩
  · exact ⟨rfl, rfl, .inl rfl⟩

theorem stops_of_head? {p : Char → Bool} (h : w = [] ∨ w.head? = r.head?)
    (hr : ∀ c ∈ r.head?, p c = false) : ∀ c ∈ w.head?, p c = false := by
  intro c hc
  rcases h with rfl | h
  · cases hc
  · exact hr c (h ▸ hc)

/-- A suffix that is not empty is a word at the start of the text. -/
theorem exists_of_suffix_eq_cons {c : Char} (h : (suffix r).1 = c :: w) :
    ∃ r', r = c :: r' ∧ isIdentStart c = true ∧ w = r'.takeWhile isIdentContinue ∧
      (suffix r).2 = r'.dropWhile isIdentContinue := by
  unfold suffix at h ⊢
  split at h
  · next d r' =>
    split at h
    · next hd =>
      cases h
      exact ⟨r', rfl, hd, rfl, by simp only [if_pos hd]⟩
    · cases h
  · cases h

/-- Whether a text goes on with nothing, or with the bracket that ends an array. -/
def Closes (x : List Char) : Prop := ∀ c ∈ x.head?, c = ']'

theorem Closes.stops (hx : Closes x) {p : Char → Bool} (hp : p ']' = false) :
    ∀ c ∈ x.head?, p c = false := by
  intro c hc
  rw [hx c hc]
  exact hp

theorem Closes.eq_nil_or_cons (hx : Closes x) : x = [] ∨ ∃ y, x = ']' :: y := by
  cases x with
  | nil => exact .inl rfl
  | cons c y =>
    obtain rfl : c = ']' := hx c rfl
    exact .inr ⟨y, rfl⟩

theorem suffix_append (hx : Closes x) (r : List Char) :
    suffix (r ++ x) = ((suffix r).1, (suffix r).2 ++ x) := by
  cases r with
  | nil =>
    rcases hx.eq_nil_or_cons with rfl | ⟨y, rfl⟩ <;> rfl
  | cons c r =>
    obtain ⟨htake, hdrop⟩ :=
      takeWhile_append_stop (w := r) (hx.stops (p := isIdentContinue) (by decide))
    simp only [List.cons_append, suffix, htake, hdrop]
    split <;> rfl

/-! ### Exponents -/

theorem isIdentContinue_of_isDigitOrGap {c : Char} (h : isDigitOrGap c = true) :
    isIdentContinue c = true := by
  simp only [isDigitOrGap, Bool.or_eq_true, beq_iff_eq] at h
  rcases h with h | rfl
  · simp [isIdentContinue, Char.isAlphanum, h]
  · rfl

/-- A word ends where no digit goes on. -/
theorem stops_dropWhile_isIdentContinue :
    ∀ c ∈ (w.dropWhile isIdentContinue).head?, isDigitOrGap c = false := by
  intro c hc
  rw [← Bool.not_eq_true]
  intro hdigit
  have := head?_dropWhile c hc
  rw [isIdentContinue_of_isDigitOrGap hdigit] at this
  cases this

/-- The sign of an exponent, and what is behind it. -/
def sign : List Char → List Char × List Char
  | '+' :: r => (['+'], r)
  | '-' :: r => (['-'], r)
  | r => ([], r)

theorem sign_spec (r : List Char) : r = (sign r).1 ++ (sign r).2 := by
  unfold sign
  split <;> rfl

theorem sign_cons_append (c : Char) (w x : List Char) :
    sign (c :: w ++ x) = ((sign (c :: w)).1, (sign (c :: w)).2 ++ x) := by
  by_cases hplus : c = '+'
  · rw [hplus]
    rfl
  by_cases hminus : c = '-'
  · rw [hminus]
    rfl
  simp [sign, hplus, hminus]

theorem exponent?_eq (cs : List Char) :
    exponent? cs =
      if ((sign (cs.dropWhile (· == '_'))).2.takeWhile isDigitOrGap).any Char.isDigit then
        some (cs.takeWhile (· == '_') ++ (sign (cs.dropWhile (· == '_'))).1 ++
            (sign (cs.dropWhile (· == '_'))).2.takeWhile isDigitOrGap,
          (sign (cs.dropWhile (· == '_'))).2.dropWhile isDigitOrGap)
      else none := rfl

/-- An exponent is what stands in front, and no digit follows it. -/
theorem exponent?_spec (h : exponent? cs = some (t, r)) :
    cs = t ++ r ∧ ∀ c ∈ r.head?, isDigitOrGap c = false := by
  rw [exponent?_eq] at h
  split at h
  · cases h
    refine ⟨?_, head?_dropWhile⟩
    rw [List.append_assoc, List.append_assoc, List.takeWhile_append_dropWhile, ← sign_spec,
      List.takeWhile_append_dropWhile]
  · cases h

/-- An exponent is an exponent by itself. -/
theorem exponent?_self (h : exponent? cs = some (t, r)) : exponent? t = some (t, []) := by
  rw [exponent?_eq] at h
  split at h
  · next hdigit =>
    cases h
    have hv := head?_dropWhile (p := (· == '_')) (w := cs)
    have hall : ∀ c ∈ cs.takeWhile (· == '_'), (c == '_') = true :=
      fun c hc => List.mem_takeWhile_imp (p := (· == '_')) hc
    generalize cs.takeWhile (· == '_') = gaps at hall ⊢
    generalize cs.dropWhile (· == '_') = v at hdigit hv ⊢
    have hdigits : ∀ c ∈ (sign v).2.takeWhile isDigitOrGap, isDigitOrGap c = true :=
      fun c hc => List.mem_takeWhile_imp hc
    -- a sign stays one, and where there was none the digits begin with none
    have hsign : sign ((sign v).1 ++ (sign v).2.takeWhile isDigitOrGap) =
          ((sign v).1, (sign v).2.takeWhile isDigitOrGap) ∧
        ∀ c ∈ ((sign v).1 ++ (sign v).2.takeWhile isDigitOrGap).head?, (c == '_') = false := by
      cases v with
      | nil => cases hdigit
      | cons c v =>
        by_cases hplus : c = '+'
        · subst hplus
          exact ⟨rfl, by simp [sign]⟩
        by_cases hminus : c = '-'
        · subst hminus
          exact ⟨rfl, by simp [sign]⟩
        have hnone : sign (c :: v) = ([], c :: v) := by simp [sign, hplus, hminus]
        rw [hnone] at hdigit ⊢
        by_cases hc : isDigitOrGap c = true
        · have hgap := hv c rfl
          simp only [List.takeWhile_cons, hc, if_true, List.nil_append]
          exact ⟨by simp [sign, hplus, hminus], by simpa using hgap⟩
        · simp [hc] at hdigit
    obtain ⟨htake, hdrop⟩ := takeWhile_append_of_all hall hsign.2
    rw [exponent?_eq, List.append_assoc, htake, hdrop, hsign.1,
      List.takeWhile_eq_self_iff.2 hdigits, List.dropWhile_eq_nil_iff.2 hdigits, if_pos hdigit,
      List.append_assoc]
  · cases h

/-- An exponent is read up to whatever is no digit. -/
theorem exponent?_append (h : exponent? w = some (t, r))
    (hx : ∀ c ∈ x.head?, isDigitOrGap c = false) : exponent? (w ++ x) = some (t, r ++ x) := by
  -- The underscores in front of the sign are skipped first, and `x` begins with none.
  have hgaps : ∀ c ∈ x.head?, (c == '_') = false := by
    intro c hc
    have := hx c hc
    simp only [isDigitOrGap, Bool.or_eq_false_iff] at this
    exact this.2
  obtain ⟨htake, hdrop⟩ := takeWhile_append_stop (w := w) hgaps
  rw [exponent?_eq] at h ⊢
  rw [htake, hdrop]
  cases hw : w.dropWhile (· == '_') with
  | nil =>
    rw [hw] at h
    cases h
  | cons c v =>
    rw [hw] at h
    rw [sign_cons_append]
    generalize sign (c :: v) = s at h ⊢
    obtain ⟨htake, hdrop⟩ := takeWhile_append_stop (w := s.2) hx
    rw [htake, hdrop]
    split at h
    · next hdigit =>
      cases h
      rw [if_pos hdigit]
    · cases h

/-- An exponent of a word alone is one of the text that the word is in. -/
theorem exponent?_of_word (h : exponent? (w.takeWhile isIdentContinue) = some (t, r)) :
    exponent? w = some (t, r ++ w.dropWhile isIdentContinue) := by
  have := exponent?_append h (stops_dropWhile_isIdentContinue (w := w))
  rwa [List.takeWhile_append_dropWhile] at this

/-- A closing bracket makes no exponent. -/
theorem exponent?_append_eq_none (h : exponent? w = none) (hx : Closes x) :
    exponent? (w ++ x) = none := by
  obtain ⟨htake, hdrop⟩ := takeWhile_append_stop (w := w) (hx.stops (p := (· == '_')) (by decide))
  rw [exponent?_eq] at h ⊢
  rw [htake, hdrop]
  cases hw : w.dropWhile (· == '_') with
  | nil =>
    -- A closing bracket is neither a sign nor a digit, so no exponent begins with it.
    have hsign : sign ([] ++ x) = ([], x) := by
      rcases hx.eq_nil_or_cons with rfl | ⟨y, rfl⟩ <;> rfl
    have hdigits : x.takeWhile isDigitOrGap = [] := by
      rcases hx.eq_nil_or_cons with rfl | ⟨y, rfl⟩ <;> rfl
    rw [hsign, hdigits]
    rfl
  | cons c v =>
    rw [hw] at h
    rw [sign_cons_append]
    generalize sign (c :: v) = s at h ⊢
    obtain ⟨htake, hdrop⟩ :=
      takeWhile_append_stop (w := s.2) (hx.stops (p := isDigitOrGap) (by decide))
    rw [htake, hdrop]
    split at h
    · cases h
    · next hdigit => rw [if_neg hdigit]

/-- Digits with the exponent behind them, or with a point alone. -/
def withExponent (taken : List Char) (hasPoint : Bool) (r : List Char) : Scan :=
  match r with
  | e :: r' =>
    if e = 'e' ∨ e = 'E' then
      match exponent? r' with
      | some (t, r'') => some (taken ++ e :: t, r'')
      | none => if hasPoint then some (taken, r) else none
    else if hasPoint then some (taken, r) else none
  | [] => if hasPoint then some (taken, r) else none

/-- Whether a point belongs to what follows it, and not to a number in front. -/
def pointStops : List Char → Bool
  | d :: _ => d == '.' || isIdentStart d
  | [] => false

theorem pointed?_eq (cs : List Char) :
    pointed? cs =
      match cs.dropWhile isDigitOrGap with
      | '.' :: r =>
        if pointStops r then none
        else withExponent (cs.takeWhile isDigitOrGap ++ '.' :: r.takeWhile isDigitOrGap) true
          (r.dropWhile isDigitOrGap)
      | r => withExponent (cs.takeWhile isDigitOrGap) false r := rfl

theorem withExponent_append (hx : Closes x) (taken : List Char) (hasPoint : Bool) (r : List Char) :
    withExponent taken hasPoint (r ++ x) =
      (withExponent taken hasPoint r).map fun s => (s.1, s.2 ++ x) := by
  cases r with
  | nil =>
    rcases hx.eq_nil_or_cons with rfl | ⟨y, rfl⟩ <;> cases hasPoint <;> rfl
  | cons c r =>
    rw [List.cons_append, withExponent, withExponent]
    split
    · cases hr : exponent? r with
      | some s =>
        rw [exponent?_append hr (hx.stops (by decide))]
        rfl
      | none =>
        rw [exponent?_append_eq_none hr hx]
        cases hasPoint <;> rfl
    · cases hasPoint <;> rfl

/-- Whether no exponent stands at the start of a text. -/
def NoExponent (w : List Char) : Prop :=
  ∀ e r, w = e :: r → (e = 'e' ∨ e = 'E') → exponent? r = none

theorem exists_exponent (h : ¬ NoExponent w) :
    ∃ e r u r', w = e :: r ∧ (e = 'e' ∨ e = 'E') ∧ exponent? r = some (u, r') := by
  simp only [NoExponent, not_forall] at h
  obtain ⟨e, r, hw, he, hr⟩ := h
  obtain ⟨⟨u, r'⟩, hu⟩ := Option.ne_none_iff_exists'.1 hr
  exact ⟨e, r, u, r', hw, he, hu⟩

theorem withExponent_of_noExponent (h : NoExponent w) (taken : List Char) (hasPoint : Bool) :
    withExponent taken hasPoint w = if hasPoint then some (taken, w) else none := by
  cases w with
  | nil => rfl
  | cons e r =>
    rw [withExponent]
    split
    · next he => rw [h e r rfl he]
    · rfl

/-- What has no exponent has none in its suffix. -/
theorem NoExponent.suffix (h : NoExponent w) : NoExponent (suffix w).1 := by
  intro e v hv he
  obtain ⟨r, rfl, -, rfl, -⟩ := exists_of_suffix_eq_cons hv
  cases hu : exponent? (r.takeWhile isIdentContinue) with
  | none => rfl
  | some s =>
    have hlong := exponent?_of_word hu
    rw [h e r rfl he] at hlong
    cases hlong

/-- What is taken behind digits is taken again in front of its suffix. -/
theorem withExponent_spec {taken : List Char} {hasPoint : Bool}
    (h : withExponent taken hasPoint w = some (t, r)) :
    ∃ u, t = taken ++ u ∧ w = u ++ r ∧
      withExponent taken hasPoint (u ++ (suffix r).1) = some (t, (suffix r).1) := by
  by_cases hw : NoExponent w
  · rw [withExponent_of_noExponent hw] at h
    split at h
    · next hpoint =>
      cases h
      refine ⟨[], by simp, rfl, ?_⟩
      rw [List.nil_append, withExponent_of_noExponent hw.suffix, if_pos hpoint]
    · cases h
  · obtain ⟨e, r', u, r₀, rfl, he, hu⟩ := exists_exponent hw
    rw [withExponent, if_pos he, hu] at h
    cases h
    obtain ⟨rfl, hr⟩ := exponent?_spec hu
    refine ⟨e :: u, rfl, rfl, ?_⟩
    have hagain := exponent?_append (exponent?_self hu) (stops_of_head? (suffix_spec r).2.2 hr)
    rw [List.cons_append, withExponent, if_pos he, hagain]
    rfl

/-- A number with a point or an exponent, in front of a closing bracket. -/
theorem pointed?_append (hx : Closes x) (w : List Char) :
    pointed? (w ++ x) = (pointed? w).map fun s => (s.1, s.2 ++ x) := by
  obtain ⟨htake, hdrop⟩ := takeWhile_append_stop (w := w) (hx.stops (p := isDigitOrGap) (by decide))
  rw [pointed?_eq, pointed?_eq, htake, hdrop]
  generalize w.takeWhile isDigitOrGap = whole
  cases hw : w.dropWhile isDigitOrGap with
  | nil =>
    rcases hx.eq_nil_or_cons with rfl | ⟨y, rfl⟩ <;> rfl
  | cons c r =>
    by_cases hc : c = '.'
    · subst hc
      -- Whether the point belongs to the number is decided by the one character behind it.
      have hstops : pointStops (r ++ x) = pointStops r := by
        cases r with
        | nil =>
          rcases hx.eq_nil_or_cons with rfl | ⟨y, rfl⟩ <;> rfl
        | cons d r => rfl
      obtain ⟨htake, hdrop⟩ :=
        takeWhile_append_stop (w := r) (hx.stops (p := isDigitOrGap) (by decide))
      simp only [List.cons_append, hstops, htake, hdrop]
      split
      · rfl
      · exact withExponent_append hx _ _ _
    · -- Without a point the match falls through to the exponent.
      have hne {y : List Char} : (match c :: y with
          | '.' :: r =>
            if pointStops r then none
            else withExponent (whole ++ '.' :: r.takeWhile isDigitOrGap) true
              (r.dropWhile isDigitOrGap)
          | r => withExponent whole false r) = withExponent whole false (c :: y) := by
        split
        · next heq => exact absurd (List.cons.inj heq).1 hc
        · rfl
      rw [List.cons_append, hne, hne, ← List.cons_append]
      exact withExponent_append hx _ _ _

/-- What is in front of a suffix, and the suffix, begin as the text with both does. -/
theorem head?_append_suffix (u r : List Char) :
    u ++ (suffix r).1 = [] ∨ (u ++ (suffix r).1).head? = (u ++ r).head? := by
  cases u with
  | nil => simpa using (suffix_spec r).2.2
  | cons c u => exact .inr rfl

theorem pointed?_of_point {r : List Char} (h : cs.dropWhile isDigitOrGap = '.' :: r)
    (hr : pointStops r = false) :
    pointed? cs = withExponent (cs.takeWhile isDigitOrGap ++ '.' :: r.takeWhile isDigitOrGap) true
      (r.dropWhile isDigitOrGap) := by
  rw [pointed?_eq, h]
  simp only [hr, Bool.false_eq_true, if_false]

theorem pointed?_of_no_point (h : ∀ r, cs.dropWhile isDigitOrGap ≠ '.' :: r) :
    pointed? cs = withExponent (cs.takeWhile isDigitOrGap) false (cs.dropWhile isDigitOrGap) := by
  rw [pointed?_eq]
  split
  · next r heq => exact absurd heq (h r)
  · rfl

theorem pointStops_eq_false (h : w = [] ∨ w.head? = r.head?) (hr : pointStops r = false) :
    pointStops w = false := by
  cases w with
  | nil => rfl
  | cons c w =>
    rcases h with h | h
    · cases h
    cases r with
    | nil => cases h
    | cons d r =>
      obtain rfl : c = d := by simpa using h
      exact hr

/-- What ends in front of a text ends in front of the suffix in its place. -/
theorem takeWhile_append_suffix {p : Char → Bool} {u : List Char} (h : cs.dropWhile p = u ++ r) :
    (cs.takeWhile p ++ (u ++ (suffix r).1)).takeWhile p = cs.takeWhile p ∧
      (cs.takeWhile p ++ (u ++ (suffix r).1)).dropWhile p = u ++ (suffix r).1 := by
  have hstop := head?_dropWhile (p := p) (w := cs)
  rw [h] at hstop
  exact takeWhile_append_of_all (fun c hc => List.mem_takeWhile_imp hc)
    (stops_of_head? (head?_append_suffix u r) hstop)

/-- A number with a point or an exponent is taken again in front of its suffix. -/
theorem pointed?_spec (h : pointed? cs = some (t, r)) :
    cs = t ++ r ∧ pointed? (t ++ (suffix r).1) = some (t, (suffix r).1) := by
  have hcs := List.takeWhile_append_dropWhile (p := isDigitOrGap) (l := cs)
  by_cases hpoint : ∃ r', cs.dropWhile isDigitOrGap = '.' :: r'
  · obtain ⟨r', hr'⟩ := hpoint
    cases hstops : pointStops r' with
    | true =>
      rw [pointed?_eq, hr'] at h
      simp [hstops] at h
    | false =>
    rw [pointed?_of_point hr' hstops] at h
    obtain ⟨u, rfl, hu, hagain⟩ := withExponent_spec h
    have hr := List.takeWhile_append_dropWhile (p := isDigitOrGap) (l := r')
    rw [hu] at hr
    rw [hr'] at hcs
    constructor
    · calc cs = cs.takeWhile isDigitOrGap ++ '.' :: (r'.takeWhile isDigitOrGap ++ (u ++ r)) := by
            rw [hr, hcs]
        _ = cs.takeWhile isDigitOrGap ++ '.' :: r'.takeWhile isDigitOrGap ++ u ++ r := by simp
    -- the digits on both sides of the point end where they ended before
    obtain ⟨htake, hdrop⟩ := takeWhile_append_suffix hu
    have hwhole : ∀ c ∈ cs.takeWhile isDigitOrGap, isDigitOrGap c = true :=
      fun c hc => List.mem_takeWhile_imp hc
    obtain ⟨htake', hdrop'⟩ := takeWhile_append_of_all hwhole
      (x := '.' :: (r'.takeWhile isDigitOrGap ++ (u ++ (suffix r).1))) (by simp; decide)
    have hstops' : pointStops (r'.takeWhile isDigitOrGap ++ (u ++ (suffix r).1)) = false := by
      have hhead := head?_append_suffix (r'.takeWhile isDigitOrGap ++ u) r
      rw [List.append_assoc, List.append_assoc, hr] at hhead
      exact pointStops_eq_false hhead hstops
    have hsplit : cs.takeWhile isDigitOrGap ++ '.' :: r'.takeWhile isDigitOrGap ++ u ++
        (suffix r).1 = cs.takeWhile isDigitOrGap ++
          '.' :: (r'.takeWhile isDigitOrGap ++ (u ++ (suffix r).1)) := by simp
    rw [hsplit, pointed?_of_point hdrop' hstops', htake', htake, hdrop]
    exact hagain
  · have hpoint : ∀ r', cs.dropWhile isDigitOrGap ≠ '.' :: r' := fun r' hr' => hpoint ⟨r', hr'⟩
    rw [pointed?_of_no_point hpoint] at h
    obtain ⟨u, rfl, hu, hagain⟩ := withExponent_spec h
    rw [hu] at hcs hpoint
    refine ⟨by rw [List.append_assoc, hcs], ?_⟩
    obtain ⟨htake, hdrop⟩ := takeWhile_append_suffix hu
    have hpoint' : ∀ r', u ++ (suffix r).1 ≠ '.' :: r' := by
      intro r' hr'
      rcases head?_append_suffix u r with hhead | hhead
      · rw [hr'] at hhead
        cases hhead
      · rw [hr'] at hhead
        obtain ⟨r'', hr''⟩ := List.head?_eq_some_iff.1 hhead.symm
        exact hpoint r'' hr''
    rw [List.append_assoc, pointed?_of_no_point (by rwa [hdrop]), htake, hdrop]
    exact hagain

end FieldBinder.Literal
