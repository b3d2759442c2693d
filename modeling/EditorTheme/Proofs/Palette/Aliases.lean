import EditorTheme.Double
import EditorTheme.Proofs.Palette.Rewriting

/-!
Aliases name the color of their target. Where the other entries refer to the target in place of the alias, the palette
has the same equations to satisfy and runs in a cycle exactly if it did before, so it resolves as before and every name
keeps its color.
-/

set_option autoImplicit false
set_option relaxedAutoImplicit false

namespace EditorTheme

open Relation

variable {α : Type}

namespace Expression

/-- The same expression with other names for the colors that it refers to. -/
def renamed (rename : String → String) : Expression α → Expression α
  | .literal c => .literal c
  | .hsl hue s l => .hsl hue s l
  | .adjust base s l => .adjust (rename base) s l
  | .mix first second weight => .mix (rename first) (rename second) weight
  | .alias name => .alias (rename name)

@[simp] theorem references_renamed (rename : String → String) (e : Expression α) :
    (e.renamed rename).references = e.references.map rename := by
  cases e <;> rfl

theorem eval_renamed_eq_ok_iff [Scalar α] {rename : String → String} {hues : HueTable α} {table : Table (Color α)}
    {e : Expression α} (h : ∀ name ∈ e.references, table.find? (rename name) = table.find? name) (c : Color α) :
    (e.renamed rename).eval hues table = .ok c ↔ e.eval hues table = .ok c := by
  have hlookup : ∀ name ∈ e.references, ∀ d,
      lookupColor table (rename name) = .ok d ↔ lookupColor table name = .ok d := by
    intro name hname d
    rw [lookupColor_eq_ok_iff, lookupColor_eq_ok_iff, h name hname]
  cases e with
  | literal rgb => rfl
  | hsl hue s l => rfl
  | adjust base s l =>
    simp only [renamed, eval, bind_eq_ok, hlookup base (by simp [references])]
  | mix first second weight =>
    simp only [renamed, eval, bind_eq_ok, hlookup first (by simp [references]), hlookup second (by simp [references])]
  | «alias» name => exact hlookup name (by simp [references]) c

end Expression

namespace Palette

/-- A name in place of another one, which is an alias of it. -/
def redirect (name target reference : String) : String := if reference = name then target else reference

/-- What an entry becomes when the alias `name` is replaced by its target in all entries but its own. -/
def bypassed (name target entry : String) (e : Expression α) : Expression α :=
  if entry = name then e else e.renamed (redirect name target)

def bypass (p : Palette α) (name target : String) : Palette α := p.rewritten (bypassed name target)

section Bypass

variable {p : Palette α} {name target : String} (halias : p.find? name = some (.alias target)) (hne : target ≠ name)

@[simp] theorem names_bypass : (p.bypass name target).names = p.names := Table.names_rewritten p _

theorem redirect_of_ne {reference : String} (h : reference ≠ name) : redirect name target reference = reference := if_neg h

include halias hne

/-- The entry of the alias would not be changed by the replacement either. -/
theorem find?_bypass (entry : String) :
    (p.bypass name target).find? entry = (p.find? entry).map (Expression.renamed (redirect name target)) := by
  rw [bypass, Table.find?_rewritten]
  by_cases hentry : entry = name
  · subst hentry
    rw [halias]
    simp [bypassed, Expression.renamed, redirect_of_ne hne]
  · refine congrArg (fun f => (p.find? entry).map f) (funext fun e => ?_)
    exact if_neg hentry

theorem refers_bypass_iff {entry reference : String} :
    Refers (p.bypass name target) entry reference ↔
      ∃ old, p.Refers entry old ∧ redirect name target old = reference := by
  simp only [refers_iff, find?_bypass halias hne, Option.map_eq_some_iff]
  constructor
  · rintro ⟨-, ⟨e, he, rfl⟩, href⟩
    obtain ⟨old, hold, rfl⟩ := List.mem_map.mp (Expression.references_renamed _ e ▸ href)
    exact ⟨old, ⟨e, he, hold⟩, rfl⟩
  · rintro ⟨old, ⟨e, he, hold⟩, rfl⟩
    exact ⟨_, ⟨e, he, rfl⟩, Expression.references_renamed _ e ▸ List.mem_map_of_mem hold⟩

omit hne in
theorem refers_alias_iff {reference : String} : p.Refers name reference ↔ reference = target := by
  rw [refers_iff]
  constructor
  · rintro ⟨e, he, href⟩
    obtain rfl := Option.some.inj (halias.symm.trans he)
    exact List.mem_singleton.mp href
  · rintro rfl
    exact ⟨_, halias, List.mem_singleton.mpr rfl⟩

theorem transGen_of_refers_bypass {entry reference : String} (h : Refers (p.bypass name target) entry reference) :
    TransGen p.Refers entry reference := by
  obtain ⟨old, hold, rfl⟩ := (refers_bypass_iff halias hne).mp h
  by_cases hname : old = name
  · subst hname
    rw [redirect, if_pos rfl]
    exact .tail (.single hold) ((refers_alias_iff halias).mpr rfl)
  · rw [redirect_of_ne hname]
    exact .single hold

theorem leads_bypass {first last : String} (h : ReflTransGen p.Refers first last) :
    ReflTransGen (Refers (p.bypass name target)) (redirect name target first) (redirect name target last) := by
  refine ReflTransGen.lift' (redirect name target) (fun entry reference hrefers => ?_) first last h
  show ReflTransGen _ (redirect name target entry) (redirect name target reference)
  by_cases hentry : entry = name
  · -- The step from the alias to its target is left out.
    subst hentry
    obtain rfl := (refers_alias_iff halias).mp hrefers
    rw [redirect_of_ne hne, redirect, if_pos rfl]
  · rw [redirect_of_ne hentry]
    exact .single ((refers_bypass_iff halias hne).mpr ⟨reference, hrefers, rfl⟩)

theorem acyclic_bypass_iff : Acyclic (p.bypass name target) ↔ p.Acyclic := by
  constructor
  · intro h
    have hother : ∀ entry, entry ≠ name → ¬ TransGen p.Refers entry entry := by
      intro entry hentry hcycle
      obtain ⟨next, hnext, hback⟩ := TransGen.head'_iff.mp hcycle
      have hround := leads_bypass halias hne hback
      rw [redirect_of_ne hentry] at hround
      exact h entry (.head' ((refers_bypass_iff halias hne).mpr ⟨next, hnext, rfl⟩) hround)
    intro entry hcycle
    by_cases hentry : entry = name
    · -- A cycle through the alias is one through its target.
      subst hentry
      obtain ⟨next, hnext, hback⟩ := TransGen.head'_iff.mp hcycle
      obtain rfl := (refers_alias_iff halias).mp hnext
      exact hother next hne (.tail' hback hnext)
    · exact hother entry hentry hcycle
  · intro h entry hcycle
    refine h entry (TransGen.lift' id (fun _ _ hrefers => ?_) entry entry hcycle)
    exact transGen_of_refers_bypass halias hne hrefers

variable [Scalar α] {hues : HueTable α} {table : Table (Color α)}

/-- A table that gives the alias the color of its target solves both palettes or neither, and every solution of either
does so. -/
theorem solves_bypass_iff : Solves (p.bypass name target) hues table ↔ p.Solves hues table := by
  have hsame : ∀ q : Palette α, q.find? name = some (.alias target) → q.Solves hues table →
      table.find? name = table.find? target := by
    intro q hq hsolves
    obtain ⟨c, hc, hfound⟩ := hsolves.equation name _ hq
    rw [hfound, (Expression.lookupColor_eq_ok_iff table target c).mp hc]
  have hentry : (p.bypass name target).find? name = some (.alias target) := by
    rw [find?_bypass halias hne, halias]
    exact congrArg (fun target => some (Expression.alias target)) (redirect_of_ne hne)
  have hredirect : table.find? name = table.find? target → ∀ reference,
      table.find? (redirect name target reference) = table.find? reference := by
    intro h reference
    by_cases hreference : reference = name
    · rw [hreference, h, redirect, if_pos rfl]
    · rw [redirect_of_ne hreference]
  have hequation : table.find? name = table.find? target → ∀ entry e,
      Equation hues table entry (e.renamed (redirect name target)) ↔ Equation hues table entry e := by
    intro h entry e
    simp only [Equation, Expression.eval_renamed_eq_ok_iff fun reference _ => hredirect h reference]
  constructor
  · intro hsolves
    refine ⟨fun entry => by rw [hsolves.names, names_bypass], fun entry e he => ?_⟩
    rw [← hequation (hsame _ hentry hsolves)]
    exact hsolves.equation entry _ (by rw [find?_bypass halias hne, he]; rfl)
  · intro hsolves
    refine ⟨fun entry => by rw [hsolves.names, names_bypass], fun entry e he => ?_⟩
    rw [find?_bypass halias hne] at he
    obtain ⟨old, hold, rfl⟩ := Option.map_eq_some_iff.mp he
    rw [hequation (hsame p halias hsolves)]
    exact hsolves.equation entry old hold

theorem evaluate_bypass_iff : (p.bypass name target).evaluate hues = .ok table ↔ p.evaluate hues = .ok table := by
  rw [evaluate_eq_ok_iff, evaluate_eq_ok_iff, acyclic_bypass_iff halias hne, solves_bypass_iff halias hne, names_bypass]

end Bypass

section Texts

variable [Scalar α] {name target : String} {texts others : Texts} {hues : HueTable α}

/-- Texts whose entries are those of other texts, with an alias replaced by its target in all entries but its own. -/
structure Bypasses (α : Type) [Scalar α] (name target : String) (texts others : Texts) : Prop where
  names : others.names = texts.names
  declares : ∀ entry (e : Expression α),
    others.Declares entry e ↔ ∃ old, texts.Declares entry old ∧ bypassed name target entry old = e

theorem bypasses_iff : Bypasses α name target texts others ↔
    RewrittenBy (bypassed name target : String → Expression α → Expression α) texts others :=
  ⟨fun h => ⟨h.names, h.declares⟩, fun h => ⟨h.names, h.declares⟩⟩

theorem Reads.bypass_iff {p : Palette α} (h : Reads texts p) :
    Reads others (p.bypass name target) ↔ Bypasses α name target texts others :=
  h.rewritten_iff.trans bypasses_iff.symm

theorem Bypasses.readable_iff (h : Bypasses α name target texts others) :
    (∀ entry ∈ others.names, others.Readable α entry) ↔ ∀ entry ∈ texts.names, texts.Readable α entry :=
  (bypasses_iff.mp h).readable_iff

end Texts

/-- An alias is transparent. Where all entries but its own refer to the target in its place, a palette evaluates to a
table exactly if it did before, and the table is the same; and so do palettes of texts, readable or not. -/
theorem resolve_alias_transparent {name target : String} (hne : target ≠ name) [Scalar α] (hues : HueTable α) :
    (∀ p : Palette α, p.find? name = some (.alias target) →
      ∀ table, (p.bypass name target).evaluate hues = .ok table ↔ p.evaluate hues = .ok table) ∧
    ∀ texts others : Texts, texts.Declares name (.alias target : Expression α) → Bypasses α name target texts others →
      ∀ table, resolve others.entries hues = .ok table ↔ resolve texts.entries hues = .ok table := by
  refine ⟨fun p halias table => evaluate_bypass_iff halias hne, fun texts others halias hbypasses table => ?_⟩
  by_cases hreadable : ∀ entry ∈ texts.names, texts.Readable α entry
  · obtain ⟨p, hparse, hreads⟩ := exists_reads hreadable
    obtain ⟨q, hparse', hreads'⟩ := exists_reads (hbypasses.readable_iff.mpr hreadable)
    obtain rfl : q = p.bypass name target := hreads'.eq (hreads.bypass_iff.mpr hbypasses)
    rw [resolve_of_parse hparse, resolve_of_parse hparse']
    exact evaluate_bypass_iff ((hreads.find?_eq_some_iff name _).mpr halias) hne
  · constructor
    · intro h
      exact absurd (hbypasses.readable_iff.mp (readable_of_resolve h)) hreadable
    · intro h
      exact absurd (readable_of_resolve h) hreadable

section Witness

private def linked : Texts :=
  ⟨[("accent", "mix(link, base, 0.5)"), ("link", "blue"), ("base", "darken(link, 0.25)"), ("blue", "#336699")], by decide⟩

private def unlinked : Texts :=
  ⟨[("accent", "mix(blue, base, 0.5)"), ("link", "blue"), ("base", "darken(blue, 0.25)"), ("blue", "#336699")], by decide⟩

private def linkedPalette : Palette Float :=
  ⟨[("accent", .mix "link" "base" 0.5), ("link", .alias "blue"), ("base", .adjust "link" 0 (-0.25)),
    ("blue", .literal ⟨51, 102, 153⟩)], by decide⟩

private theorem bypasses_unlinked : Bypasses Float "link" "blue" linked unlinked := by
  have hlinked : Reads linked linkedPalette := reads_of_parse rfl
  have hunlinked : Reads unlinked (linkedPalette.bypass "link" "blue") := reads_of_parse rfl
  exact hlinked.bypass_iff.mp hunlinked

theorem resolve_alias_transparent_unlinked :
    "blue" ≠ "link" ∧ linked.Declares "link" (.alias "blue" : Expression Float) ∧
      Bypasses Float "link" "blue" linked unlinked ∧
      ∃ table : Table (Color Float), resolve linked.entries Table.empty = .ok table ∧
        resolve unlinked.entries Table.empty = .ok table := by
  have hne : "blue" ≠ "link" := by decide
  have halias : linked.Declares "link" (.alias "blue" : Expression Float) := ⟨_, rfl, rfl⟩
  have hok : (resolve linked.entries (Table.empty : HueTable Float)).isOk = true := by decide +kernel
  obtain ⟨table, htable⟩ := exists_ok_of_isOk hok
  refine ⟨hne, halias, bypasses_unlinked, table, htable, ?_⟩
  exact ((resolve_alias_transparent hne Table.empty).2 linked unlinked halias bypasses_unlinked table).mpr htable

end Witness

end Palette

end EditorTheme
