import FieldBinder.Proofs.Grammar.Sound
import FieldBinder.Proofs.Text.Line

/-!
# The ends of lines in written types

The written form of a type that is read goes on over several lines exactly if a literal does that it
shows (`Ty.newline_mem_render_iff`, `Ty.isLine_render_iff`).
-/

namespace FieldBinder

open Token (literalsList newline_mem_textList_iff)

mutual

/-- The literals in the written form of a type. -/
def Ty.literals : Ty → List String
  | .path p => p.literals
  | .reference _ _ elem | .pointer _ elem | .slice elem | .group elem | .paren elem => elem.literals
  | .array elem len => elem.literals ++ Token.literalsList len
  | .tuple elems _ => Ty.literalsList elems
  | .traitObject _ bounds _ | .implTrait bounds _ => Bound.literalsList bounds
  | .never | .infer => []
  | .other tokens => Token.literalsList tokens

/-- The literals in the written forms of types. -/
def Ty.literalsList : List Ty → List String
  | [] => []
  | t :: r => t.literals ++ Ty.literalsList r

/-- The literals in the written form of a bound. -/
def Bound.literals : Bound → List String
  | .trait _ _ _ path => path.literals
  | .lifetime _ => []
  | .other tokens => Token.literalsList tokens

/-- The literals in the written forms of bounds. -/
def Bound.literalsList : List Bound → List String
  | [] => []
  | b :: r => b.literals ++ Bound.literalsList r

/-- The literals in the written form of a path. -/
def Path.literals : Path → List String
  | .mk _ segments => Segment.literalsList segments

/-- The literals in the written forms of segments. -/
def Segment.literalsList : List Segment → List String
  | [] => []
  | s :: r => s.literals ++ Segment.literalsList r

/-- The literals in the written form of a segment. -/
def Segment.literals : Segment → List String
  | .mk _ args => args.literals

/-- The literals in the written form of the arguments of a segment. -/
def Args.literals : Args → List String
  | .none => []
  | .angle _ args _ => GenericArg.literalsList args
  | .paren inputs _ output =>
    Ty.literalsList inputs ++
      match output with
      | .none => []
      | .some t => t.literals

/-- The literals in the written forms of generic arguments. -/
def GenericArg.literalsList : List GenericArg → List String
  | [] => []
  | a :: r => a.literals ++ GenericArg.literalsList r

/-- The literals in the written form of a generic argument. -/
def GenericArg.literals : GenericArg → List String
  | .lifetime _ => []
  | .type t | .assocType _ _ t => t.literals
  | .other tokens => Token.literalsList tokens

end

/-! ### Ends of lines -/

/-- Texts that are joined on one line go on over several lines where one of them does. -/
theorem newline_mem_joinTexts_iff (sep : String) (hsep : Text.IsLine sep) {l : List String} :
    '\n' ∈ (joinTexts sep l).toList ↔ ∃ s ∈ l, '\n' ∈ s.toList := by
  have h := not_congr (Text.isLine_joinTexts sep hsep (l := l))
  simpa only [Text.IsLine, not_forall, not_not, exists_prop] using h

/-- A text that is one of two has no line break if neither has one. -/
theorem newline_not_mem_ite {c : Prop} [Decidable c] {s s' : String} (hs : '\n' ∉ s.toList)
    (hs' : '\n' ∉ s'.toList) : '\n' ∉ (if c then s else s').toList := by
  split
  · exact hs
  · exact hs'

theorem exists_mem_append_iff {α : Type} {p : α → Prop} {l l' : List α} :
    (∃ a ∈ l ++ l', p a) ↔ (∃ a ∈ l, p a) ∨ ∃ a ∈ l', p a := by
  simp only [List.mem_append, or_and_right, exists_or]

mutual

/-- The written form of a type goes on over several lines where a literal in it does. -/
theorem Ty.newline_mem_render_iff : ∀ {t : Ty} {plus : Bool}, t.Sound plus →
    ('\n' ∈ t.render.toList ↔ ∃ l ∈ t.literals, '\n' ∈ l.toList)
  | .path p, _, h => by
    rw [Ty.Sound] at h
    rw [Ty.render, Ty.literals]
    exact Path.newline_mem_render_iff h.1
  | .reference none isMut elem, _, h => by
    rw [Ty.Sound] at h
    have hmut : '\n' ∉ (if isMut then "mut " else "").toList :=
      newline_not_mem_ite (by decide) (by decide)
    rw [Ty.render, Ty.literals, ← Ty.newline_mem_render_iff h.2]
    simp [hmut]
  | .reference (some l) isMut elem, _, h => by
    rw [Ty.Sound] at h
    have hmut : '\n' ∉ (if isMut then "mut " else "").toList :=
      newline_not_mem_ite (by decide) (by decide)
    rw [Ty.render, Ty.literals, ← Ty.newline_mem_render_iff h.2]
    simp [hmut, (h.1 l rfl).newline_not_mem]
  | .pointer isMut elem, _, h => by
    rw [Ty.Sound] at h
    have hmut : '\n' ∉ (if isMut then "*mut " else "*const ").toList :=
      newline_not_mem_ite (by decide) (by decide)
    rw [Ty.render, Ty.literals, String.toList_append, List.mem_append, Ty.newline_mem_render_iff h]
    simp only [hmut, false_or]
  | .slice elem, _, h => by
    rw [Ty.Sound] at h
    rw [Ty.render, Ty.literals, ← Ty.newline_mem_render_iff h]
    simp
  | .array elem len, _, h => by
    rw [Ty.Sound] at h
    -- The length is written from its own tokens, so its literals are looked for there.
    rw [Ty.render, Ty.literals, exists_mem_append_iff, ← Ty.newline_mem_render_iff h.1,
      ← newline_mem_textList_iff h.2]
    simp
  | .tuple elems trailing, _, h => by
    rw [Ty.Sound] at h
    -- What stands around the parts is fixed text on one line, here and below.
    have hcomma : '\n' ∉ (if elems.length = 1 then "," else "").toList :=
      newline_not_mem_ite (by decide) (by decide)
    rw [Ty.render, Ty.literals, ← Ty.newline_mem_renderList_iff h,
      ← newline_mem_joinTexts_iff ", " (by decide)]
    simp [hcomma]
  | .traitObject isDyn bounds trailing, _, h => by
    rw [Ty.Sound] at h
    have hdyn : '\n' ∉ (if isDyn then "dyn " else "").toList :=
      newline_not_mem_ite (by decide) (by decide)
    rw [Ty.render, Ty.literals, ← Bound.newline_mem_renderList_iff h.1,
      ← newline_mem_joinTexts_iff " + " (by decide)]
    simp [hdyn]
  | .implTrait bounds trailing, _, h => by
    rw [Ty.Sound] at h
    rw [Ty.render, Ty.literals, ← Bound.newline_mem_renderList_iff h.1,
      ← newline_mem_joinTexts_iff " + " (by decide)]
    simp
  | .group elem, _, h => by
    rw [Ty.Sound] at h
    rw [Ty.render, Ty.literals]
    exact Ty.newline_mem_render_iff h
  | .paren elem, _, h => by
    rw [Ty.Sound] at h
    rw [Ty.render, Ty.literals, ← Ty.newline_mem_render_iff h]
    simp
  | .never, _, _ => by
    rw [Ty.render, Ty.literals]
    simp
  | .infer, _, _ => by
    rw [Ty.render, Ty.literals]
    simp
  | .other tokens, _, h => by
    rw [Ty.Sound] at h
    rw [Ty.render, Ty.literals]
    exact newline_mem_textList_iff h

/-- Of several types one goes on over several lines where a literal in it does. -/
theorem Ty.newline_mem_renderList_iff : ∀ {ts : List Ty}, Ty.SoundList ts →
    ((∃ s ∈ Ty.renderList ts, '\n' ∈ s.toList) ↔ ∃ l ∈ Ty.literalsList ts, '\n' ∈ l.toList)
  | [], _ => by simp [Ty.renderList, Ty.literalsList]
  | t :: r, h => by
    rw [Ty.SoundList] at h
    rw [Ty.renderList, Ty.literalsList, exists_mem_append_iff, ← Ty.newline_mem_render_iff h.1,
      ← Ty.newline_mem_renderList_iff h.2]
    simp only [List.mem_cons, exists_eq_or_imp]

/-- Only the path of a bound can go on over several lines. -/
theorem Bound.newline_mem_render_iff : ∀ {b : Bound}, b.Sound →
    ('\n' ∈ b.render.toList ↔ ∃ l ∈ b.literals, '\n' ∈ l.toList)
  | .trait parens isMaybe binder path, h => by
    rw [Bound.Sound] at h
    rw [Bound.render, Bound.literals]
    exact Path.newline_mem_render_iff h.2
  | .lifetime name, h => by
    rw [Bound.Sound] at h
    rw [Bound.render, Bound.literals]
    simp [h.newline_not_mem]
  | .other tokens, h => by
    rw [Bound.Sound] at h
    rw [Bound.render, Bound.literals]
    exact newline_mem_textList_iff h

theorem Bound.newline_mem_renderList_iff : ∀ {bs : List Bound}, Bound.SoundList bs →
    ((∃ s ∈ Bound.renderList bs, '\n' ∈ s.toList) ↔ ∃ l ∈ Bound.literalsList bs, '\n' ∈ l.toList)
  | [], _ => by simp [Bound.renderList, Bound.literalsList]
  | b :: r, h => by
    rw [Bound.SoundList] at h
    rw [Bound.renderList, Bound.literalsList, exists_mem_append_iff,
      ← Bound.newline_mem_render_iff h.1, ← Bound.newline_mem_renderList_iff h.2]
    simp only [List.mem_cons, exists_eq_or_imp]

/-- Names have no line breaks, so the literals of a path are those of its arguments. -/
theorem Path.newline_mem_render_iff : ∀ {p : Path} {inBound : Bool}, p.Sound inBound →
    ('\n' ∈ p.render.toList ↔ ∃ l ∈ p.literals, '\n' ∈ l.toList)
  | .mk leading segments, _, h => by
    rw [Path.Sound] at h
    have hleading : '\n' ∉ (if leading then "::" else "").toList :=
      newline_not_mem_ite (by decide) (by decide)
    rw [Path.render, Path.literals, ← Segment.newline_mem_renderList_iff h.2,
      ← newline_mem_joinTexts_iff "::" (by decide)]
    simp [hleading]

theorem Segment.newline_mem_renderList_iff : ∀ {ss : List Segment} {inBound : Bool},
    Segment.SoundList inBound ss →
    ((∃ s ∈ Segment.renderList ss, '\n' ∈ s.toList) ↔
      ∃ l ∈ Segment.literalsList ss, '\n' ∈ l.toList)
  | [], _, _ => by simp [Segment.renderList, Segment.literalsList]
  | s :: r, _, h => by
    rw [Segment.SoundList] at h
    rw [Segment.renderList, Segment.literalsList, exists_mem_append_iff,
      ← Segment.newline_mem_render_iff h.1, ← Segment.newline_mem_renderList_iff h.2]
    simp only [List.mem_cons, exists_eq_or_imp]

/-- The name of a segment has no line break. -/
theorem Segment.newline_mem_render_iff : ∀ {s : Segment} {parens : Bool}, s.Sound parens →
    ('\n' ∈ s.render.toList ↔ ∃ l ∈ s.literals, '\n' ∈ l.toList)
  | .mk ident args, _, h => by
    rw [Segment.Sound] at h
    rw [Segment.render, Segment.literals, String.toList_append, List.mem_append,
      Args.newline_mem_render_iff h.2.2]
    simp [h.1.newline_not_mem]

/-- Neither brackets nor arrows have line breaks, so all depends on the arguments. -/
theorem Args.newline_mem_render_iff : ∀ {a : Args} {parens brackets : Bool},
    a.Sound parens brackets → ('\n' ∈ a.render.toList ↔ ∃ l ∈ a.literals, '\n' ∈ l.toList)
  | .none, _, _, _ => by
    rw [Args.render, Args.literals]
    simp
  | .angle turbofish args trailing, _, _, h => by
    rw [Args.Sound] at h
    have hcolons : '\n' ∉ (if turbofish then "::" else "").toList :=
      newline_not_mem_ite (by decide) (by decide)
    rw [Args.render, Args.literals, ← GenericArg.newline_mem_renderList_iff h.2,
      ← newline_mem_joinTexts_iff ", " (by decide)]
    simp [hcolons]
  | .paren inputs trailing .none, _, _, h => by
    rw [Args.Sound] at h
    rw [Args.render, Args.literals, List.append_nil, ← Ty.newline_mem_renderList_iff h.2.1,
      ← newline_mem_joinTexts_iff ", " (by decide)]
    simp
  | .paren inputs trailing (.some t), _, _, h => by
    rw [Args.Sound] at h
    rw [Args.render, Args.literals, exists_mem_append_iff, ← Ty.newline_mem_renderList_iff h.2.1,
      ← newline_mem_joinTexts_iff ", " (by decide), ← Ty.newline_mem_render_iff h.2.2]
    simp

theorem GenericArg.newline_mem_renderList_iff : ∀ {as : List GenericArg}, GenericArg.SoundList as →
    ((∃ s ∈ GenericArg.renderList as, '\n' ∈ s.toList) ↔
      ∃ l ∈ GenericArg.literalsList as, '\n' ∈ l.toList)
  | [], _ => by simp [GenericArg.renderList, GenericArg.literalsList]
  | a :: r, h => by
    rw [GenericArg.SoundList] at h
    rw [GenericArg.renderList, GenericArg.literalsList, exists_mem_append_iff,
      ← GenericArg.newline_mem_render_iff h.1, ← GenericArg.newline_mem_renderList_iff h.2]
    simp only [List.mem_cons, exists_eq_or_imp]

/-- A lifetime has no line break; the name that a type is given for has none either. -/
theorem GenericArg.newline_mem_render_iff : ∀ {a : GenericArg}, a.Sound →
    ('\n' ∈ a.render.toList ↔ ∃ l ∈ a.literals, '\n' ∈ l.toList)
  | .lifetime name, h => by
    rw [GenericArg.Sound] at h
    rw [GenericArg.render, GenericArg.literals]
    simp [h.newline_not_mem]
  | .type t, h => by
    rw [GenericArg.Sound] at h
    rw [GenericArg.render, GenericArg.literals]
    exact Ty.newline_mem_render_iff h
  | .assocType name args t, h => by
    rw [GenericArg.Sound] at h
    rw [GenericArg.render, GenericArg.literals, ← Ty.newline_mem_render_iff h.2.2.2]
    simp [h.1.newline_not_mem]
  | .other tokens, h => by
    rw [GenericArg.Sound] at h
    rw [GenericArg.render, GenericArg.literals]
    exact newline_mem_textList_iff h

end

/-- The written form of a type is on one line just when all literals in it are. -/
theorem Ty.isLine_render_iff {t : Ty} {plus : Bool} (h : t.Sound plus) :
    Text.IsLine t.render ↔ ∀ l ∈ t.literals, Text.IsLine l := by
  rw [Text.IsLine, Ty.newline_mem_render_iff h]
  simp only [Text.IsLine, not_exists, not_and]

end FieldBinder
