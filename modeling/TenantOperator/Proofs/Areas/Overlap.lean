import Mathlib.Data.List.Forall2
import TenantOperator.Proofs.Tenancy.Routing

/-! Which requests the paths of routing tables match. Ids go into a pattern as they are, and a dot
in a pattern stands for any character; so a pattern keeps to the requests of its own tenant and area
unless a dot of one of its ids meets another character, or the slash between two ids. -/
namespace TenantOperator
namespace Routing

/-- What the end of a pattern is: the end of the path, or a slash and the rest of the path. -/
def closing : List Char := ['(', '/', '|', '$', ')', '(', '.', '*', ')']

/-- How the routing layer reads a pattern against a path: from the start on, a dot as any character,
the closing groups as said, and every other character as itself. -/
def reads : List Char → List Char → Bool
  | [], _ => true
  | c :: p, x =>
    if c :: p = closing then x.isEmpty || x.head? = some '/'
    else match x with
      | [] => false
      | d :: x => (c = '.' || c = d) && reads p x

def Matches (pattern path : String) : Prop := reads pattern.toList path.toList

instance (pattern path : String) : Decidable (Matches pattern path) :=
  inferInstanceAs (Decidable (_ = true))

def areaPath (inst tenant area : String) : String := "/" ++ inst ++ "/" ++ tenant ++ "/" ++ area

def InArea (inst tenant area path : String) : Prop :=
  path = areaPath inst tenant area ∨ ∃ rest, path = areaPath inst tenant area ++ "/" ++ rest

section Covers
variable {c d : Char} {p q x y z : List Char}

/-- The text reads as `x`, with its dots for any characters. -/
def Covers : List Char → List Char → Prop := List.Forall₂ fun c d => c = '.' ∨ c = d

theorem covers_refl (p : List Char) : Covers p p := List.forall₂_same.2 fun _ _ => .inr rfl

theorem covers_append (hp : Covers p x) (hq : Covers q y) : Covers (p ++ q) (x ++ y) :=
  List.rel_append hp hq

theorem covers_append_left :
    Covers (p ++ q) x ↔ ∃ y z, x = y ++ z ∧ Covers p y ∧ Covers q z := by
  constructor
  · intro h
    refine ⟨x.take p.length, x.drop p.length, (List.take_append_drop ..).symm, ?_, ?_⟩
    · have hp := List.forall₂_take p.length h
      rwa [List.take_left] at hp
    · have hq := List.forall₂_drop p.length h
      rwa [List.drop_left] at hq
  · rintro ⟨y, z, rfl, hp, hq⟩
    exact covers_append hp hq

theorem covers_append_right :
    Covers p (x ++ y) ↔ ∃ q r, p = q ++ r ∧ Covers q x ∧ Covers r y := by
  constructor
  · intro h
    exact ⟨p.take x.length, p.drop x.length, (List.take_append_drop ..).symm,
      List.forall₂_take_append p x y h, List.forall₂_drop_append p x y h⟩
  · rintro ⟨q, r, rfl, hq, hr⟩
    exact covers_append hq hr

theorem covers_slash_append : Covers ('/' :: p) x ↔ ∃ y, x = '/' :: y ∧ Covers p y := by
  simp [Covers, List.forall₂_cons_left_iff, and_comm]

theorem covers_iff_eq (hp : '.' ∉ p) : Covers p x ↔ p = x := by
  constructor
  · intro h
    induction h with
    | nil => rfl
    | cons h _ ih =>
      rw [ih fun hc => hp (List.mem_cons_of_mem _ hc)]
      rcases h with rfl | rfl
      · exact absurd List.mem_cons_self hp
      · rfl
  · rintro rfl
    exact covers_refl p

/-- Only a dot of a text without slashes reads as a slash. -/
theorem covers_append_slash (hp : '/' ∉ p) :
    Covers p (x ++ '/' :: y) ↔ ∃ q r, p = q ++ '.' :: r ∧ Covers q x ∧ Covers r y := by
  constructor
  · intro h
    obtain ⟨q, r, rfl, hq, hr⟩ := covers_append_right.1 h
    obtain ⟨c, r', hc, hr', rfl⟩ := List.forall₂_cons_right_iff.1 hr
    rcases hc with rfl | rfl
    · exact ⟨q, r', rfl, hq, hr'⟩
    · simp at hp
  · rintro ⟨q, r, rfl, hq, hr⟩
    exact covers_append hq (.cons (.inl rfl) hr)

/-- What may follow an id in a path. -/
def Rest (x : List Char) : Prop := x = [] ∨ ∃ y, x = '/' :: y

/-- The text reads as `x`, or as `x` with a slash and more after it. -/
def Reaches (p x : List Char) : Prop :=
  Covers p x ∨ ∃ q rest, p = q ++ '.' :: rest ∧ Covers q x

theorem reaches_iff (hp : '/' ∉ p) : Reaches p x ↔ ∃ y, Rest y ∧ Covers p (x ++ y) := by
  constructor
  · rintro (h | ⟨q, rest, rfl, hq⟩)
    · exact ⟨[], .inl rfl, by rwa [List.append_nil]⟩
    · exact ⟨'/' :: rest, .inr ⟨rest, rfl⟩,
        (covers_append_slash hp).2 ⟨q, rest, rfl, hq, covers_refl rest⟩⟩
  · rintro ⟨y, rfl | ⟨y, rfl⟩, h⟩
    · rw [List.append_nil] at h
      exact .inl h
    · obtain ⟨q, r, rfl, hq, -⟩ := (covers_append_slash hp).1 h
      exact .inr ⟨q, r, rfl, hq⟩

theorem reaches_iff_eq (hp : '.' ∉ p) : Reaches p x ↔ p = x := by
  rw [← covers_iff_eq hp]
  refine or_iff_left ?_
  rintro ⟨q, rest, rfl, -⟩
  simp at hp

theorem reaches_of_covers (hp : '/' ∉ p) (hx : '/' ∉ x) (h : Covers p q) (hz : Rest z)
    (hy : Rest y) (he : q ++ z = x ++ y) : Reaches p x := by
  rcases List.append_eq_append_iff.1 he with ⟨m, rfl, rfl⟩ | ⟨m, rfl, rfl⟩
  · -- What is left of the id after the start is a rest of a path, so it is empty.
    cases m with
    | nil =>
      rw [List.append_nil]
      exact .inl h
    | cons c m => rcases hz with hz | ⟨z, hz⟩ <;> simp_all
  · refine (reaches_iff hp).2 ⟨m, ?_, h⟩
    cases m with
    | nil => exact .inl rfl
    | cons c m => rcases hy with hy | ⟨y, hy⟩ <;> simp_all [Rest]

theorem append_slash_eq (hx : '/' ∉ x) (h : p ++ '/' :: q = x ++ '/' :: y) :
    p = x ∧ q = y ∨ ∃ m, p = x ++ '/' :: m ∧ y = m ++ '/' :: q := by
  rcases List.append_eq_append_iff.1 h with ⟨m, rfl, hm⟩ | ⟨m, rfl, hm⟩
  · cases m <;> simp_all
  · cases m <;> simp_all

end Covers

section reads
variable {p t u f g x y : List Char} {c : Char}

theorem reads_cons_append_closing : reads (c :: (p ++ closing)) x =
    match x with
    | [] => false
    | d :: x => (c = '.' || c = d) && reads (p ++ closing) x := by
  have hne : c :: (p ++ closing) ≠ closing := by
    intro h
    have hlength := congrArg List.length h
    simp at hlength
    omega
  cases x <;> simp only [reads, if_neg hne]

theorem reads_append_closing :
    reads (p ++ closing) x ↔ ∃ y z, x = y ++ z ∧ Covers p y ∧ Rest z := by
  induction p generalizing x with
  | nil =>
    have hread : reads closing x = (x.isEmpty || x.head? = some '/') := rfl
    cases x <;> simp [hread, Covers, Rest]
  | cons c p ih =>
    rw [List.cons_append, reads_cons_append_closing]
    cases x with
    | nil => simp [Covers, List.forall₂_cons_left_iff]
    | cons d x =>
      simp only [Bool.and_eq_true, ih]
      constructor
      · rintro ⟨hc, y, z, rfl, hp, hz⟩
        exact ⟨d :: y, z, rfl, .cons (by simpa using hc) hp, hz⟩
      · rintro ⟨y, z, hx, hp, hz⟩
        obtain ⟨d', y', hc, hp', rfl⟩ := List.forall₂_cons_left_iff.1 hp
        cases hx
        exact ⟨by simpa using hc, y', z, rfl, hp', hz⟩

theorem reads_same_append (before : List Char) :
    reads (before ++ (p ++ closing)) (before ++ x) = reads (p ++ closing) x := by
  induction before with
  | nil => rfl
  | cons c before ih =>
    rw [List.cons_append, List.cons_append, ← List.append_assoc, reads_cons_append_closing,
      List.append_assoc]
    simp [ih]

/-- The pattern of `t` and `f` reaches the paths of `u` and `g`: id by id, or the first id reads as
both, with a dot for the slash. -/
def Overlies (t f u g : List Char) : Prop :=
  Covers t u ∧ Reaches f g ∨ ∃ q r, t = q ++ '.' :: r ∧ Covers q u ∧ Reaches r g

theorem overlies_of_reads (ht : '/' ∉ t) (hf : '/' ∉ f) (hu : '/' ∉ u) (hg : '/' ∉ g)
    (hy : Rest y) (h : reads (t ++ '/' :: f ++ closing) (u ++ '/' :: (g ++ y))) :
    Overlies t f u g := by
  obtain ⟨x, z, hx, hp, hz⟩ := reads_append_closing.1 h
  obtain ⟨a, b', rfl, hta, hb'⟩ := covers_append_left.1 hp
  obtain ⟨b, rfl, hfb⟩ := covers_slash_append.1 hb'
  rw [List.append_assoc, List.cons_append] at hx
  rcases append_slash_eq hu hx.symm with ⟨rfl, he⟩ | ⟨m, rfl, he⟩
  · exact .inl ⟨hta, reaches_of_covers hf hg hfb hz hy he⟩
  · -- The slash of the pattern stands after the second id, a dot for the one before.
    obtain ⟨q, r, rfl, hq, hr⟩ := (covers_append_slash ht).1 hta
    have hr' : '/' ∉ r := fun hc => ht (by simp [hc])
    exact .inr ⟨q, r, rfl, hq, reaches_of_covers hr' hg hr (.inr ⟨_, rfl⟩) hy he.symm⟩

theorem exists_reads_of_overlies (ht : '/' ∉ t) (hf : '/' ∉ f) (h : Overlies t f u g) :
    ∃ y, Rest y ∧ reads (t ++ '/' :: f ++ closing) (u ++ '/' :: (g ++ y)) := by
  rcases h with ⟨htu, hfg⟩ | ⟨q, r, rfl, hq, hr⟩
  · obtain ⟨y, hy, hfy⟩ := (reaches_iff hf).1 hfg
    refine ⟨y, hy, reads_append_closing.2 ⟨_, [], (List.append_nil _).symm, ?_, .inl rfl⟩⟩
    exact covers_append htu (.cons (.inr rfl) hfy)
  · have hr' : '/' ∉ r := fun hc => ht (by simp [hc])
    obtain ⟨y, hy, hry⟩ := (reaches_iff hr').1 hr
    refine ⟨y ++ '/' :: f, ?_,
      reads_append_closing.2 ⟨_, [], (List.append_nil _).symm, ?_, .inl rfl⟩⟩
    · rcases hy with rfl | ⟨y, rfl⟩
      · exact .inr ⟨f, rfl⟩
      · exact .inr ⟨_, rfl⟩
    · rw [← List.append_assoc, ← List.cons_append, ← List.append_assoc]
      exact covers_append (covers_append hq (.cons (.inl rfl) hry)) (covers_refl _)

end reads

section Matches
variable {i t u f g path : String}

theorem toList_slash : "/".toList = ['/'] := rfl

theorem toList_routingPath : (Naming.routingPath i t f).toList =
    '/' :: i.toList ++ '/' :: (t.toList ++ '/' :: f.toList ++ closing) := by
  have hclosing : "(/|$)(.*)".toList = closing := rfl
  simp only [Naming.routingPath, String.toList_append, toList_slash, hclosing, List.cons_append,
    List.nil_append, List.append_assoc]

theorem inArea_iff : InArea i u g path ↔ ∃ y, Rest y ∧
    path.toList = '/' :: i.toList ++ '/' :: (u.toList ++ '/' :: (g.toList ++ y)) := by
  constructor
  · rintro (rfl | ⟨rest, rfl⟩)
    · exact ⟨[], .inl rfl, by simp [areaPath, String.toList_append, toList_slash]⟩
    · exact ⟨'/' :: rest.toList, .inr ⟨_, rfl⟩,
        by simp [areaPath, String.toList_append, toList_slash]⟩
  · rintro ⟨y, rfl | ⟨y, rfl⟩, h⟩
    · refine .inl (String.toList_inj.1 ?_)
      simp [h, areaPath, String.toList_append, toList_slash]
    · refine .inr ⟨String.ofList y, String.toList_inj.1 ?_⟩
      simp [h, areaPath, String.toList_append, toList_slash]

/-- The instance is of no account: it is the same in pattern and path. -/
theorem matches_iff {x : List Char} (hx : path.toList = '/' :: i.toList ++ '/' :: x) :
    Matches (Naming.routingPath i t f) path ↔ reads (t.toList ++ '/' :: f.toList ++ closing) x := by
  have hsame := reads_same_append (p := t.toList ++ '/' :: f.toList) (x := x)
    ('/' :: i.toList ++ ['/'])
  rw [Matches, toList_routingPath, hx, ← hsame]
  simp only [List.append_assoc, List.cons_append, List.nil_append]

/-- A pattern matches some request for an area exactly if its ids overlie those of the area. -/
theorem exists_matches_iff_overlies (ht : '/' ∉ t.toList) (hf : '/' ∉ f.toList)
    (hu : '/' ∉ u.toList) (hg : '/' ∉ g.toList) :
    (∃ path, InArea i u g path ∧ Matches (Naming.routingPath i t f) path) ↔
      Overlies t.toList f.toList u.toList g.toList := by
  constructor
  · rintro ⟨path, harea, hmatch⟩
    obtain ⟨y, hy, hpath⟩ := inArea_iff.1 harea
    exact overlies_of_reads ht hf hu hg hy ((matches_iff hpath).1 hmatch)
  · intro h
    obtain ⟨y, hy, hreads⟩ := exists_reads_of_overlies ht hf h
    let x := '/' :: i.toList ++ '/' :: (u.toList ++ '/' :: (g.toList ++ y))
    have hx : (String.ofList x).toList = x := String.toList_ofList
    exact ⟨_, inArea_iff.2 ⟨y, hy, hx⟩, (matches_iff hx).2 hreads⟩

example : Matches (Naming.routingPath "dc1" "t" "a.b") "/dc1/t/a-b/c" := by decide

theorem overlies_iff_eq (ht : '.' ∉ t.toList) (hf : '.' ∉ f.toList) :
    Overlies t.toList f.toList u.toList g.toList ↔ t = u ∧ f = g := by
  rw [Overlies, covers_iff_eq ht, reaches_iff_eq hf, String.toList_inj, String.toList_inj]
  refine or_iff_left ?_
  rintro ⟨q, r, hq, -⟩
  simp [hq] at ht

theorem slash_not_mem (h : MicroserviceSpec.validateArea t = .ok ()) : '/' ∉ t.toList := by
  intro hmem
  simp only [MicroserviceSpec.validateArea] at h
  split at h
  · cases h
  · split at h
    · rename_i hall
      exact absurd (List.all_eq_true.1 hall '/' hmem) (by decide)
    · cases h

/-- When the pattern of an area of a tenant matches a request for another one. Without dots in its
ids it never does. -/
theorem overlaps_iff (i : String) (ht : MicroserviceSpec.validateArea t = .ok ())
    (hf : MicroserviceSpec.validateArea f = .ok ()) (hu : MicroserviceSpec.validateArea u = .ok ())
    (hg : MicroserviceSpec.validateArea g = .ok ()) :
    ((∃ path, InArea i u g path ∧ Matches (Naming.routingPath i t f) path) ↔
      Overlies t.toList f.toList u.toList g.toList) ∧
    ('.' ∉ t.toList → '.' ∉ f.toList → (t, f) ≠ (u, g) →
      ∀ path, InArea i u g path → ¬Matches (Naming.routingPath i t f) path) := by
  have hiff := exists_matches_iff_overlies (i := i) (slash_not_mem ht) (slash_not_mem hf)
    (slash_not_mem hu) (slash_not_mem hg)
  refine ⟨hiff, fun ht' hf' hne path harea hmatch => hne ?_⟩
  obtain ⟨rfl, rfl⟩ := (overlies_iff_eq ht' hf').1 (hiff.1 ⟨path, harea, hmatch⟩)
  rfl

theorem overlaps_plain :
    ((∃ path, InArea "dc1" "a" "b-c" path ∧ Matches (Naming.routingPath "dc1" "a-b" "c") path) ↔
      Overlies "a-b".toList "c".toList "a".toList "b-c".toList) ∧
    ∀ path, InArea "dc1" "a" "b-c" path → ¬Matches (Naming.routingPath "dc1" "a-b" "c") path := by
  obtain ⟨hiff, hnone⟩ := overlaps_iff (t := "a-b") (f := "c") (u := "a") (g := "b-c") "dc1"
    rfl rfl rfl rfl
  exact ⟨hiff, hnone (by decide) (by decide) (by decide)⟩

/-- The pattern of tenant `a.b` takes a request for area `b` of tenant `a`. -/
theorem not_forall_not_matches :
    ¬∀ i t f u g : String, MicroserviceSpec.validateArea t = .ok () →
      MicroserviceSpec.validateArea f = .ok () → MicroserviceSpec.validateArea u = .ok () →
      MicroserviceSpec.validateArea g = .ok () → (t, f) ≠ (u, g) →
      ∀ path, InArea i u g path → ¬Matches (Naming.routingPath i t f) path := by
  intro h
  exact h "dc1" "a.b" "c" "a" "b" rfl rfl rfl rfl (by decide) "/dc1/a/b/c" (.inr ⟨"c", rfl⟩)
    (by decide)

/-- Where ids have no dots, a rule of a tenant's table that matches a request for an area is the
rule of that tenant and area. -/
theorem eq_of_rule_matches {ps : List ResolvedPairing} {pattern : String}
    (hps : ∀ p ∈ ps, '.' ∉ p.area.toList ∧ '/' ∉ p.area.toList) (ht : '.' ∉ t.toList)
    (ht' : '/' ∉ t.toList) (hu : '/' ∉ u.toList) (hg : '/' ∉ g.toList)
    (hrule : (rules i t ps).contains pattern) (harea : InArea i u g path)
    (hmatch : Matches pattern path) : t = u ∧ pattern = Naming.routingPath i u g := by
  obtain ⟨p, hp, rfl⟩ := contains_rules.1 hrule
  obtain ⟨hdot, hslash⟩ := hps p hp
  obtain ⟨rfl, rfl⟩ := (overlies_iff_eq ht hdot).1
    ((exists_matches_iff_overlies ht' hslash hu hg).1 ⟨path, harea, hmatch⟩)
  exact ⟨rfl, rfl⟩

end Matches
end Routing
end TenantOperator
