import Mathlib.Data.List.Forall2

/-!
Steps that can fail, one after the other: when a sequence of steps succeeds, and where it fails.
-/

set_option autoImplicit false
set_option relaxedAutoImplicit false

namespace EditorTheme

variable {ε β γ δ : Type}

theorem bind_eq_ok {x : Except ε β} {f : β → Except ε γ} {c : γ} :
    (x >>= f) = .ok c ↔ ∃ b, x = .ok b ∧ f b = .ok c := by
  cases x with
  | error e => simp [bind, Except.bind]
  | ok b => simp [bind, Except.bind]

theorem bind_eq_error {x : Except ε β} {f : β → Except ε γ} {e : ε} :
    (x >>= f) = .error e ↔ x = .error e ∨ ∃ b, x = .ok b ∧ f b = .error e := by
  cases x with
  | error e' => simp [bind, Except.bind]
  | ok b => simp [bind, Except.bind]

theorem bind_of_ok {x : Except ε β} {b : β} (h : x = .ok b) (f : β → Except ε γ) : (x >>= f) = f b := by
  rw [h]
  rfl

theorem bind_of_error {x : Except ε β} {e : ε} (h : x = .error e) (f : β → Except ε γ) :
    (x >>= f) = .error e := by
  rw [h]
  rfl

@[simp] theorem pure_eq_ok {b c : β} : (pure b : Except ε β) = .ok c ↔ b = c := by
  simp [pure, Except.pure]

@[simp] theorem pure_ne_error {b : β} {e : ε} : (pure b : Except ε β) ≠ .error e := by
  simp [pure, Except.pure]

theorem exists_ok_of_isOk {x : Except ε β} (h : x.isOk = true) : ∃ b, x = .ok b := by
  cases x with
  | error e => cases h
  | ok b => exact ⟨b, rfl⟩

theorem forall_not_error_iff {x : Except ε β} : (∀ e, ¬ x = .error e) ↔ ∃ b, x = .ok b := by
  cases x <;> simp

section MapError

variable {ε' : Type} (g : ε → ε')

@[simp] theorem mapError_ok (b : β) : (Except.ok b : Except ε β).mapError g = .ok b := rfl

theorem mapError_eq_ok_iff {x : Except ε β} {b : β} : x.mapError g = .ok b ↔ x = .ok b := by
  cases x <;> simp [Except.mapError]

theorem mapError_bind (x : Except ε β) (f : β → Except ε γ) :
    (x >>= f).mapError g = (x.mapError g >>= fun b => (f b).mapError g) := by
  cases x <;> rfl

theorem mapError_mapM (f : β → Except ε γ) (items : List β) :
    (items.mapM f).mapError g = items.mapM fun item => (f item).mapError g := by
  induction items with
  | nil => rfl
  | cons item rest ih =>
    rw [List.mapM_cons, List.mapM_cons, mapError_bind]
    refine congrArg _ (funext fun first => ?_)
    rw [mapError_bind, ih]
    rfl

theorem mapError_foldlM (f : γ → β → Except ε γ) (items : List β) (start : γ) :
    (items.foldlM f start).mapError g = items.foldlM (fun c item => (f c item).mapError g) start := by
  induction items generalizing start with
  | nil => rfl
  | cons item rest ih =>
    rw [List.foldlM_cons, List.foldlM_cons, mapError_bind]
    exact congrArg _ (funext fun next => ih next)

end MapError

theorem foldlM_congr {f f' : γ → β → Except ε γ} {items : List β} (h : ∀ item ∈ items, ∀ c, f c item = f' c item)
    (start : γ) : items.foldlM f start = items.foldlM f' start := by
  induction items generalizing start with
  | nil => rfl
  | cons item rest ih =>
    rw [List.foldlM_cons, List.foldlM_cons, h item List.mem_cons_self]
    exact congrArg _ (funext fun next => ih (fun later hlater => h later (List.mem_cons_of_mem item hlater)) next)

theorem foldlM_concat (f : γ → β → Except ε γ) (start : γ) (items : List β) (last : β) :
    (items ++ [last]).foldlM f start = items.foldlM f start >>= fun c => f c last := by
  rw [List.foldlM_append]
  simp

theorem foldlM_eq_error_iff {f : γ → β → Except ε γ} {items : List β} {start : γ} {e : ε} :
    items.foldlM f start = .error e ↔ ∃ before item after c,
      items = before ++ item :: after ∧ before.foldlM f start = .ok c ∧ f c item = .error e := by
  constructor
  · intro h
    induction items generalizing start with
    | nil => exact absurd h pure_ne_error
    | cons item rest ih =>
      rw [List.foldlM_cons] at h
      rcases bind_eq_error.mp h with hfirst | ⟨next, hnext, hrest⟩
      · exact ⟨[], item, rest, start, rfl, rfl, hfirst⟩
      · obtain ⟨before, later, after, c, rfl, hbefore, hlater⟩ := ih hrest
        refine ⟨item :: before, later, after, c, rfl, ?_, hlater⟩
        rw [List.foldlM_cons, bind_of_ok hnext, hbefore]
  · rintro ⟨before, item, after, c, rfl, hbefore, hitem⟩
    rw [List.foldlM_append, bind_of_ok hbefore, List.foldlM_cons]
    exact bind_of_error hitem _

theorem exists_of_foldlM_error {f : γ → β → Except ε γ} {items : List β} {start : γ} {e : ε}
    (h : items.foldlM f start = .error e) : ∃ item ∈ items, ∃ c, f c item = .error e := by
  obtain ⟨before, item, after, c, rfl, -, hitem⟩ := foldlM_eq_error_iff.mp h
  exact ⟨item, List.mem_append_right before List.mem_cons_self, c, hitem⟩

theorem foldlM_invariant {P : γ → Prop} {f : γ → β → Except ε γ} {items : List β}
    (hstep : ∀ item ∈ items, ∀ c c', P c → f c item = .ok c' → P c') {start last : γ}
    (h : items.foldlM f start = .ok last) (hstart : P start) : P last := by
  induction items generalizing start with
  | nil =>
    obtain rfl := pure_eq_ok.mp h
    exact hstart
  | cons item rest ih =>
    rw [List.foldlM_cons] at h
    obtain ⟨next, hnext, hrest⟩ := bind_eq_ok.mp h
    exact ih (fun later hlater => hstep later (List.mem_cons_of_mem item hlater)) hrest
      (hstep item List.mem_cons_self start next hstart hnext)

theorem forall₂_of_mapM_ok {f : β → Except ε γ} {items : List β} {results : List γ} (h : items.mapM f = .ok results) :
    List.Forall₂ (fun item result => f item = .ok result) items results := by
  induction items generalizing results with
  | nil =>
    obtain rfl := pure_eq_ok.mp h
    exact .nil
  | cons item rest ih =>
    rw [List.mapM_cons] at h
    obtain ⟨first, hfirst, hafter⟩ := bind_eq_ok.mp h
    obtain ⟨others, hothers, hpure⟩ := bind_eq_ok.mp hafter
    obtain rfl := pure_eq_ok.mp hpure
    exact .cons hfirst (ih hothers)

theorem exists_mem_of_forall₂ {R : β → γ → Prop} {items : List β} {results : List γ} (h : List.Forall₂ R items results)
    {item : β} (hmem : item ∈ items) : ∃ result ∈ results, R item result := by
  induction h with
  | nil => cases hmem
  | @cons first result rest others hfirst _ ih =>
    rcases List.mem_cons.mp hmem with rfl | hrest
    · exact ⟨result, List.mem_cons_self, hfirst⟩
    · obtain ⟨later, hlater, hrelated⟩ := ih hrest
      exact ⟨later, List.mem_cons_of_mem result hlater, hrelated⟩

theorem exists_of_forall₂ {R : β → γ → Prop} {items : List β} {results : List γ} (h : List.Forall₂ R items results)
    {result : γ} (hmem : result ∈ results) : ∃ item, R item result := by
  obtain ⟨item, -, hrelated⟩ := exists_mem_of_forall₂ (R := fun result item => R item result) h.flip hmem
  exact ⟨item, hrelated⟩

theorem forM_congr {check check' : β → Except ε Unit} {items : List β} (h : ∀ item ∈ items, check item = check' item) :
    forM items check = forM items check' := by
  induction items with
  | nil => rfl
  | cons item rest ih =>
    obtain ⟨hitem, hrest⟩ := List.forall_mem_cons.mp h
    rw [List.forM_cons, List.forM_cons, hitem, ih hrest]

theorem forM_eq_ok_iff {check : β → Except ε Unit} {items : List β} :
    forM items check = .ok () ↔ ∀ item ∈ items, check item = .ok () := by
  induction items with
  | nil => simp
  | cons item rest ih =>
    rw [List.forM_cons, bind_eq_ok, List.forall_mem_cons, ← ih]
    constructor
    · rintro ⟨⟨⟩, hitem, hrest⟩
      exact ⟨hitem, hrest⟩
    · rintro ⟨hitem, hrest⟩
      exact ⟨(), hitem, hrest⟩

theorem forM_eq_error {check : β → Except ε Unit} {before after : List β} {item : β} {e : ε}
    (hbefore : ∀ earlier ∈ before, check earlier = .ok ()) (hitem : check item = .error e) :
    forM (before ++ item :: after) check = .error e := by
  rw [List.forM_append, bind_of_ok (forM_eq_ok_iff.mpr hbefore), List.forM_cons]
  exact bind_of_error hitem _

theorem mapM_eq_error {f : β → Except ε γ} {before after : List β} {item : β} {e : ε}
    (hbefore : ∀ earlier ∈ before, ∃ c, f earlier = .ok c) (hitem : f item = .error e) :
    (before ++ item :: after).mapM f = .error e := by
  induction before with
  | nil =>
    rw [List.nil_append, List.mapM_cons]
    exact bind_of_error hitem _
  | cons earlier before ih =>
    obtain ⟨⟨c, hc⟩, hrest⟩ := List.forall_mem_cons.mp hbefore
    rw [List.cons_append, List.mapM_cons, bind_of_ok hc]
    exact bind_of_error (ih hrest) _

/-- An item of a list that lacks a property which all items before it have. -/
def FirstFailing (P : β → Prop) (items : List β) (item : β) : Prop :=
  ∃ before after, items = before ++ item :: after ∧ (∀ earlier ∈ before, P earlier) ∧ ¬ P item

theorem FirstFailing.not_forall {P : β → Prop} {items : List β} {item : β} (h : FirstFailing P items item) :
    ¬ ∀ item ∈ items, P item := by
  obtain ⟨before, after, rfl, -, hitem⟩ := h
  exact fun hall => hitem (hall item (by simp))

theorem not_firstFailing_nil {P : β → Prop} (item : β) : ¬ FirstFailing P [] item := by
  rintro ⟨before, after, hitems, -⟩
  simp at hitems

theorem firstFailing_cons_iff {P : β → Prop} {first item : β} {rest : List β} :
    FirstFailing P (first :: rest) item ↔ first = item ∧ ¬ P item ∨ P first ∧ FirstFailing P rest item := by
  constructor
  · rintro ⟨before, after, hitems, hbefore, hitem⟩
    rcases List.cons_eq_append_iff.mp hitems with ⟨-, hhead⟩ | ⟨earlier, rfl, rfl⟩
    · exact .inl ⟨(List.cons.inj hhead).1.symm, hitem⟩
    · obtain ⟨hfirst, hearlier⟩ := List.forall_mem_cons.mp hbefore
      exact .inr ⟨hfirst, earlier, after, rfl, hearlier, hitem⟩
  · rintro (⟨rfl, hitem⟩ | ⟨hfirst, before, after, rfl, hbefore, hitem⟩)
    · exact ⟨[], rest, rfl, by simp, hitem⟩
    · exact ⟨first :: before, after, rfl, List.forall_mem_cons.mpr ⟨hfirst, hbefore⟩, hitem⟩

theorem exists_firstFailing {P : β → Prop} {items : List β} (h : ¬ ∀ item ∈ items, P item) :
    ∃ item, FirstFailing P items item := by
  induction items with
  | nil => exact absurd (by simp) h
  | cons item rest ih =>
    by_cases hitem : P item
    · have hrest : ¬ ∀ later ∈ rest, P later := fun hall => h (List.forall_mem_cons.mpr ⟨hitem, hall⟩)
      obtain ⟨first, before, after, rfl, hbefore, hfirst⟩ := ih hrest
      exact ⟨first, item :: before, after, rfl, List.forall_mem_cons.mpr ⟨hitem, hbefore⟩, hfirst⟩
    · exact ⟨item, [], rest, rfl, by simp, hitem⟩

theorem forM_eq_error_iff {check : β → Except ε Unit} {items : List β} {e : ε} :
    forM items check = .error e ↔
      ∃ item, FirstFailing (fun item => check item = .ok ()) items item ∧ check item = .error e := by
  constructor
  · intro h
    have hsome : ¬ ∀ item ∈ items, check item = .ok () := by
      intro hall
      rw [forM_eq_ok_iff.mpr hall] at h
      cases h
    obtain ⟨item, before, after, rfl, hbefore, hitem⟩ := exists_firstFailing hsome
    refine ⟨item, ⟨before, after, rfl, hbefore, hitem⟩, ?_⟩
    cases hcheck : check item with
    | ok u => exact absurd hcheck hitem
    | error e' => rw [← h, forM_eq_error hbefore hcheck]
  · rintro ⟨item, ⟨before, after, rfl, hbefore, -⟩, hitem⟩
    exact forM_eq_error hbefore hitem

section Find

variable {P : β → Prop} {test : β → Bool} {items : List β} {item : β}

theorem find?_eq_some_iff_firstFailing (htest : ∀ item, test item = true ↔ ¬ P item) :
    items.find? test = some item ↔ FirstFailing P items item := by
  rw [List.find?_eq_some_iff_append, htest]
  constructor
  · rintro ⟨hitem, before, after, rfl, hbefore⟩
    refine ⟨before, after, rfl, fun earlier hearlier => ?_, hitem⟩
    have hfalse : ¬ test earlier = true := by simpa using hbefore earlier hearlier
    exact Classical.not_not.mp (mt (htest earlier).mpr hfalse)
  · rintro ⟨before, after, rfl, hbefore, hitem⟩
    refine ⟨hitem, before, after, rfl, fun earlier hearlier => ?_⟩
    have hfalse : ¬ test earlier = true := fun h => (htest earlier).mp h (hbefore earlier hearlier)
    simpa using hfalse

theorem find?_eq_none_iff_forall (htest : ∀ item, test item = true ↔ ¬ P item) :
    items.find? test = none ↔ ∀ item ∈ items, P item := by
  rw [List.find?_eq_none]
  refine forall₂_congr fun item _ => ?_
  rw [htest, Classical.not_not]

theorem find?_of_firstFailing (htest : ∀ item, test item = true ↔ P item) (h : FirstFailing P items item) :
    (items.find? fun item => !test item) = some item :=
  (find?_eq_some_iff_firstFailing fun item => by simp [← htest]).mpr h

end Find

end EditorTheme
