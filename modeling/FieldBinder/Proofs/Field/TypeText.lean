import FieldBinder.Proofs.Crate.Spelling
import FieldBinder.Proofs.Grammar.RoundTrip

/-!
# The written form of a type

A type that was read from a source is written again in a compact form (`Ty.render`), and this form
is all that is kept of the type of a field.  For a structural type nothing is lost by that: the
written form is read as the same type again (`Ty.exists_parse?_render`), so that no two such types
have one written form (`Ty.plain_eq_of_render_eq`).  Two things are not written, though: a comma or
a plus sign behind the last part of a list, which is no part of what is the same, and invisible
groups (`Ty.render_iterate_group`).
-/

namespace FieldBinder

open Grammar
open Token (sizeList)

/-! ### Whole texts -/

theorem Grammar.Takes.finish {α : Type} {p : Parser α} {ts : List Token} {P : α → Prop}
    (hp : Takes p ts [] P) : ∃ a, Grammar.finish p ts = .ok a ∧ P a := by
  obtain ⟨a, written, heq, ha⟩ := hp [] none
  exact ⟨a, finish_eq_ok.2 ⟨written, heq⟩, ha⟩

/-- A structural type is read from its written form, up to what stands behind last parts. -/
theorem Ty.exists_parse?_render {t : Ty} (h : t.Sound true) (hs : t.Structural) :
    ∃ t', Ty.parse? t.render = some t' ∧ t'.plain = t.plain := by
  obtain ⟨ts, hts, hlex⟩ := (Ty.isPhrase_render h hs).lex?
  have hreads := Ty.reads h hs ts hts (6 * sizeList ts + 16) (by omega) [] endsType_nil
  rw [List.append_nil] at hreads
  obtain ⟨t', ht', hplain⟩ := Takes.finish hreads
  refine ⟨t', ?_, hplain⟩
  have hread : readAll (fun g => g (.type true)) t.render = .ok t' := by
    rw [readAll, hlex]
    exact congrArg (Except.mapError TextFault.grammar) ht'
  rw [Ty.parse?, hread]
  rfl

/-- Structural types with the same written form are the same, up to what stands behind last
parts. -/
theorem Ty.plain_eq_of_render_eq {t u : Ty} (ht : t.Sound true) (hts : t.Structural)
    (hu : u.Sound true) (hus : u.Structural) (h : t.render = u.render) : t.plain = u.plain := by
  obtain ⟨t', ht', hplain⟩ := Ty.exists_parse?_render ht hts
  obtain ⟨u', hu', hplain'⟩ := Ty.exists_parse?_render hu hus
  rw [h, hu'] at ht'
  rw [← hplain, ← hplain', Option.some.inj ht']

/-- Invisible groups around a type are not written. -/
theorem Ty.render_iterate_group (t : Ty) (n : Nat) : (Ty.group^[n] t).render = t.render := by
  induction n with
  | zero => rfl
  | succ n ih => rw [Function.iterate_succ_apply', Ty.render, ih]

/-! ### Types in sources -/

/-- The types that are read from texts: a text can be a type as a whole, and it can be a source file
with a field of the type. -/
inductive Ty.IsRead : Ty → Prop
  | text {text : String} {t : Ty} (h : Ty.parse? text = some t) : IsRead t
  | field {root : Namespace} {files : List Crate.SourceFile} {c : Crate} {home : Namespace}
      {m : Module} {name : String} {fields : List NamedField} {f : NamedField}
      (h : Crate.ofFiles root files = .ok c) (hm : c.module? home = some m)
      (hi : .struct name (.named fields) ∈ m.items) (hf : f ∈ fields) : IsRead f.type

theorem Ty.IsRead.sound {t : Ty} (h : t.IsRead) : t.Sound true := by
  cases h with
  | text h => exact Ty.sound_of_parse? h
  | field h hm hi hf =>
    have hspelled := Crate.spelled_ofFiles (P := fun _ => True) (by simp) (by simp) (by simp) h
    have hitem := (hspelled.modules _ _ hm).items _ hi
    rw [Item.Sound] at hitem
    exact (hitem.2 _ hf).type

/-- Writing a structural type loses nothing: its text is read as the same type again, up to the
commas and plus signs behind last parts, another type has another text, and invisible groups around
it are not written. -/
theorem Ty.IsRead.render_faithful {t : Ty} (h : t.IsRead) (hs : t.Structural) :
    (∃ t', Ty.parse? t.render = some t' ∧ t'.plain = t.plain) ∧
      (∀ u : Ty, u.IsRead → u.Structural → u.plain ≠ t.plain → u.render ≠ t.render) ∧
      ∀ n, (Ty.group^[n] t).render = t.render := by
  refine ⟨Ty.exists_parse?_render h.sound hs, fun u hu hus hne heq => hne ?_,
    Ty.render_iterate_group t⟩
  exact Ty.plain_eq_of_render_eq hu.sound hus h.sound hs heq

/-- A type of most forms, with a plus sign behind its last bound. -/
def callbacksText : String := "&'a mut [Box<dyn Fn(u8) -> bool + 'a +>; 4]"

theorem Ty.IsRead.render_faithful_callbacks :
    ∃ t, Ty.parse? callbacksText = some t ∧ t.IsRead ∧ t.Structural ∧
      (∃ t', Ty.parse? t.render = some t' ∧ t'.plain = t.plain) ∧
      (∀ u : Ty, u.IsRead → u.Structural → u.plain ≠ t.plain → u.render ≠ t.render) ∧
      ∀ n, (Ty.group^[n] t).render = t.render := by
  have hread : (Ty.parse? callbacksText).any (fun t => decide t.Structural) = true := by
    decide +kernel
  obtain ⟨t, ht, hstructural⟩ := (Option.any_eq_true _ _).1 hread
  have hs : t.Structural := of_decide_eq_true hstructural
  exact ⟨t, ht, .text ht, hs, Ty.IsRead.render_faithful (.text ht) hs⟩

end FieldBinder
