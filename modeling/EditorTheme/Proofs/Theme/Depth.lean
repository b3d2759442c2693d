import EditorTheme.Proofs.Double.Channels
import EditorTheme.Proofs.Palette.Texts
import EditorTheme.Proofs.Raising.Compilation
import EditorTheme.Proofs.Theme.Compilation
import Mathlib.Data.List.Nodup

/-!
No permitted depth is enough for all themes. A palette of aliases, each of which stands for the next one, has its colors,
but the search for their order goes through all of them one inside the other.
-/

set_option autoImplicit false
set_option relaxedAutoImplicit false

namespace EditorTheme

namespace Palette

def rung (place : Nat) : String := String.ofList (List.replicate (place + 1) 'a')

/-- Aliases, each of the next name, and a color for the last name. -/
def ladder (count : Nat) : List (String × String) :=
  (List.range count).map (fun place => (rung place, rung (place + 1))) ++ [(rung count, "#336699")]

section Names

variable {count place : Nat}

theorem length_rung (place : Nat) : (rung place).toList.length = place + 1 := by
  rw [rung, String.toList_ofList, List.length_replicate]

theorem rung_injective : Function.Injective rung := by
  intro place other h
  have hlength := congrArg (fun name => name.toList.length) h
  simp only [length_rung] at hlength
  exact Nat.succ.inj hlength

theorem map_fst_ladder (count : Nat) : (ladder count).map Prod.fst = (List.range (count + 1)).map rung := by
  simp [ladder, List.range_succ]

theorem nodup_ladder (count : Nat) : ((ladder count).map Prod.fst).Nodup := by
  rw [map_fst_ladder]
  exact List.Nodup.map rung_injective List.nodup_range

theorem mem_ladder_iff {name text : String} : (name, text) ∈ ladder count ↔
    (∃ place < count, name = rung place ∧ text = rung (place + 1)) ∨ name = rung count ∧ text = "#336699" := by
  simp [ladder, eq_comm]

theorem trim_rung (place : Nat) : Text.trim (rung place).toList = (rung place).toList := by
  have hdrop : Text.dropBlanks (List.replicate (place + 1) 'a') = List.replicate (place + 1) 'a' := rfl
  rw [rung, String.toList_ofList, Text.trim, hdrop, List.reverse_replicate, hdrop, List.reverse_replicate]

end Names

section Reading

variable {α : Type} [Scalar α]

theorem read_rung (place : Nat) : Expression.read (rung place) = .ok (.alias (rung place) : Expression α) := by
  have hname : Expression.Name (rung place).toList := by
    rw [rung, String.toList_ofList, List.replicate_succ]
    refine .mk (.inl rfl) fun c hc => ?_
    obtain ⟨-, rfl⟩ := List.mem_replicate.mp hc
    exact .inl (by decide)
  have hgrammar : Expression.Grammar (rung place).toList (.alias (rung place) : Expression α) := by
    have hread := Expression.Grammar.name (α := α) hname
    rwa [String.ofList_toList] at hread
  rw [Expression.read_eq_ok_iff, trim_rung]
  exact hgrammar

theorem read_color : Expression.read "#336699" = .ok (.literal ⟨51, 102, 153⟩ : Expression α) := rfl

/-- The palette of the aliases. -/
structure IsLadder (p : Palette α) (count : Nat) : Prop where
  names : p.names = (List.range (count + 1)).map rung
  next : ∀ place < count, p.find? (rung place) = some (.alias (rung (place + 1)))
  last : p.find? (rung count) = some (.literal ⟨51, 102, 153⟩)

theorem exists_parse_ladder (count : Nat) : ∃ p : Palette α, parse (ladder count) = .ok p ∧ IsLadder p count := by
  have hreads : ∀ entry ∈ ladder count, ∃ e : Expression α, Expression.read entry.2 = .ok e := by
    rintro ⟨name, text⟩ hmem
    rcases mem_ladder_iff.mp hmem with ⟨place, -, -, rfl⟩ | ⟨-, rfl⟩
    · exact ⟨_, read_rung (place + 1)⟩
    · exact ⟨_, read_color⟩
  obtain ⟨p, hp⟩ := exists_ofEntries hreads
  obtain ⟨hnames, hentries⟩ := entries_of_ofEntries (nodup_ladder count) hp
  refine ⟨p, hp, hnames.trans (map_fst_ladder count), fun place hplace => ?_, ?_⟩
  · rw [← p.mem_entries_iff, hentries]
    exact ⟨_, mem_ladder_iff.mpr (.inl ⟨place, hplace, rfl, rfl⟩), read_rung (place + 1)⟩
  · rw [← p.mem_entries_iff, hentries]
    exact ⟨_, mem_ladder_iff.mpr (.inr ⟨rfl, rfl⟩), read_color⟩

end Reading

namespace IsLadder

variable {α : Type} {p : Palette α} {count : Nat}

theorem entry_cases (h : IsLadder p count) {name : String} {e : Expression α} (he : p.find? name = some e) :
    (∃ place < count, name = rung place ∧ e = .alias (rung (place + 1))) ∨
      name = rung count ∧ e = .literal ⟨51, 102, 153⟩ := by
  have hname : name ∈ p.names := (p.mem_names_iff name).mpr ⟨e, he⟩
  rw [h.names] at hname
  obtain ⟨place, hplace, rfl⟩ := List.mem_map.mp hname
  rcases Nat.lt_succ_iff_lt_or_eq.mp (List.mem_range.mp hplace) with hless | rfl
  · exact .inl ⟨place, hless, rfl, Option.some.inj (he.symm.trans (h.next place hless))⟩
  · exact .inr ⟨rfl, Option.some.inj (he.symm.trans h.last)⟩

theorem acyclic (h : IsLadder p count) : p.Acyclic := by
  have hlonger : ∀ name reference, p.Refers name reference → name.toList.length < reference.toList.length := by
    intro name reference hrefers
    obtain ⟨e, he, href⟩ := refers_iff.mp hrefers
    rcases h.entry_cases he with ⟨place, -, rfl, rfl⟩ | ⟨-, rfl⟩
    · obtain rfl := List.mem_singleton.mp href
      rw [length_rung, length_rung]
      exact Nat.lt_succ_self _
    · cases href
  have hless : ∀ {first last}, Relation.TransGen p.Refers first last → first.toList.length < last.toList.length := by
    intro first last h
    induction h with
    | single hrefers => exact hlonger _ _ hrefers
    | tail _ hrefers ih => exact ih.trans (hlonger _ _ hrefers)
  exact fun name hcycle => Nat.lt_irrefl _ (hless hcycle)

theorem mem_names (h : IsLadder p count) {place : Nat} (hplace : place ≤ count) : rung place ∈ p.names := by
  rw [h.names]
  exact List.mem_map_of_mem (List.mem_range.mpr (Nat.lt_succ_of_le hplace))

theorem evaluate_eq [Scalar α] (h : IsLadder p count) {c : Color α} (hc : Color.ofRgb ⟨51, 102, 153⟩ = .ok c)
    (hues : HueTable α) : p.evaluate hues = .ok (p.rewritten fun _ _ => c) := by
  have hfind : ∀ name ∈ p.names, (p.rewritten fun _ _ => c).find? name = some c := by
    intro name hname
    obtain ⟨e, he⟩ := (p.mem_names_iff name).mp hname
    rw [Table.find?_rewritten, he]
    rfl
  refine evaluate_eq_ok_iff.mpr ⟨h.acyclic, ⟨fun name => by rw [Table.names_rewritten], fun name e he => ?_⟩,
    Table.names_rewritten _ _⟩
  refine ⟨c, ?_, hfind name ((p.mem_names_iff name).mpr ⟨e, he⟩)⟩
  rcases h.entry_cases he with ⟨place, hplace, -, rfl⟩ | ⟨-, rfl⟩
  · rw [Expression.eval, Expression.lookupColor, hfind _ (h.mem_names hplace)]
  · exact hc

theorem order_eq_tooDeep (h : IsLadder p count) {depth : Nat} (hdepth : depth ≤ count) :
    Raising.order depth p = .error .tooDeep := by
  have hfirst : p.names.IsChain fun name next => (p.references name).head? = some next := by
    rw [h.names, List.isChain_iff_getElem]
    intro place hplace
    simp only [List.length_map, List.length_range] at hplace
    simp only [List.getElem_map, List.getElem_range]
    rw [references_of_find? (h.next place (Nat.lt_of_succ_lt_succ hplace))]
    rfl
  refine Raising.order_eq_tooDeep rfl hfirst p.distinct ?_
  rw [h.names, List.length_map, List.length_range]
  exact Nat.lt_succ_of_le hdepth

end IsLadder

end Palette

namespace Theme

/-- A theme with a row of aliases. -/
def climbing (count : Nat) : ThemeDocument := ⟨"t", "dark", Palette.ladder count, [], [], []⟩

def climbingData (count : Nat) : List (String × Value) :=
  [("name", .text "t"), ("background", .text "dark"), ("colors", ThemeDocument.textTable (Palette.ladder count))]

theorem ofData_climbingData {α : Type} (count : Nat) :
    (ThemeDocument.ofData (climbingData count) : Except (Failure α) ThemeDocument) = .ok (climbing count) := by
  have hname : Expression.isName "t".toList = true := by decide
  have hvisible : ThemeDocument.Visible "dark" := .mk (c := 'd') (by decide) (by decide)
  exact ThemeDocument.ofData_eq_ok_iff.mpr
    ⟨rfl, rfl, Expression.isName_iff.mp hname, rfl, hvisible, rfl, rfl, rfl⟩

theorem read_dark : (Background.read "dark" : Except (ThemeError Float) Background) = .ok .dark := by rfl

theorem exists_color : ∃ c : Color Float, Color.ofRgb ⟨51, 102, 153⟩ = .ok c := by
  have hok : (Color.ofRgb ⟨51, 102, 153⟩ : Except (ThemeError Float) (Color Float)).isOk = true := by decide +kernel
  exact exists_ok_of_isOk hok

theorem exists_compile_climbing (count : Nat) : ∃ t : Theme Float, compile (climbing count) = .ok t := by
  obtain ⟨p, hp, hladder⟩ := Palette.exists_parse_ladder (α := Float) count
  obtain ⟨c, hc⟩ := exists_color
  have hcolors : Palette.resolve (Palette.ladder count) Table.empty = .ok (p.rewritten fun _ _ => c) :=
    (bind_of_ok hp _).trans (hladder.evaluate_eq hc Table.empty)
  refine ⟨⟨"t", .dark, p.rewritten fun _ _ => c, [], []⟩, compile_eq_ok_iff.mpr ⟨Table.empty, ?_⟩⟩
  exact ⟨rfl, read_dark, rfl, hcolors, rfl, rfl⟩

theorem raising_compile_climbing (depths : Raising.Depths) {count : Nat} (h : depths.search ≤ count) :
    (Raising.compile depths (.ofDocument (climbing count)) : Except (Raising.Exception Float) (Theme Float)) =
      .error .tooDeep := by
  obtain ⟨p, hp, hladder⟩ := Palette.exists_parse_ladder (α := Float) count
  obtain ⟨c, hc⟩ := exists_color
  have hread : (Raising.readEntries depths.nesting (Raising.ofTexts (Palette.ladder count)) :
      Except (Raising.Exception Float) (Palette Float)) = .ok p := by
    rw [Raising.readEntries_ofTexts, hp]
    rfl
  have hdeclared := (Palette.declared_of_evaluate (hladder.evaluate_eq hc Table.empty)).1
  have hcheck := Palette.checkReferences_eq_ok_iff.mpr hdeclared
  have hresolve : (Raising.resolve depths (Raising.ofTexts (Palette.ladder count)) Table.empty :
      Except (Raising.Exception Float) (Table (Color Float))) = .error .tooDeep := by
    rw [Raising.resolve, bind_of_ok hread, Raising.evaluate, hcheck, bind_of_ok (Raising.raise_ok ())]
    exact bind_of_error (hladder.order_eq_tooDeep h) _
  have hbackground := congrArg Raising.raise read_dark
  exact (bind_of_ok hbackground _).trans (bind_of_error hresolve _)

/-- Whatever depths are permitted, there are themes for which they are not enough. -/
theorem exists_tooDeep (depths : Raising.Depths) : ∃ data : List (String × Value),
    (∃ t : Theme Float, ofData data = .ok t) ∧
      (Raising.ofData depths data : Except (Raising.Exception Float) (Theme Float)) = .error .tooDeep := by
  obtain ⟨t, ht⟩ := exists_compile_climbing depths.search
  refine ⟨climbingData depths.search, ⟨t, (bind_of_ok (ofData_climbingData _) _).trans ht⟩, ?_⟩
  rcases Raising.readDocument_agrees (α := Float) depths.nesting (climbingData depths.search) with hread | ⟨-, hread⟩
  · rw [ofData_climbingData] at hread
    exact (bind_of_ok hread _).trans (raising_compile_climbing depths le_rfl)
  · exact bind_of_error hread _

end Theme

end EditorTheme
