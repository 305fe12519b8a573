/-
Postmortem/Proofs/FunctionTables.lean

Finding the function that an address lies in.

The functions of an executable are kept by address, one for each: sorting is stable, so
of those with one address the first to be read comes first, and it is the one that
stays (`find?_table`).

A look-up goes to the last function that does not start behind the address, and takes
no other.  That is the right one where functions are laid out one behind the other
(`at?_of_laidOut`); and so they are in the table if they do not overlap, but for
repetitions of the same range (`laidOut_table`).  Which functions have an address in
their range is said by `covers`, of the list as it was read.

An executable is made from its tables whatever symbols are in them
(`Executable.ofTables`), and so all of this is said of any symbols.

Main result: `functionAt?_eq_find?`.
-/
import Mathlib.Data.List.Find
import Mathlib.Data.List.Pairwise
import Mathlib.Data.List.TakeWhile
import Postmortem.Symbolication

namespace Postmortem

namespace FunctionSymbol

variable {fs : List FunctionSymbol} {f g : FunctionSymbol} {a : ℕ}

/-! ### Ranges -/

/-- The address lies in the range of the function. -/
def covers (f : FunctionSymbol) (a : ℕ) : Bool := f.address ≤ a && a < f.address + f.size

theorem covers_iff : f.covers a = true ↔ f.address ≤ a ∧ a < f.address + f.size := by
  rw [covers, Bool.and_eq_true, decide_eq_true_iff, decide_eq_true_iff]

theorem contains_eq_covers (hf : 0 < f.size) : f.contains a = f.covers a := by
  rw [Bool.eq_iff_iff, covers_iff]
  simp only [contains, Bool.and_eq_true, Bool.or_eq_true, decide_eq_true_iff, beq_iff_eq]
  omega

/-- Both functions have the same range, or one of them ends before the other one starts. -/
def SameOrApart (f g : FunctionSymbol) : Prop :=
  f.address = g.address ∧ f.size = g.size ∨
    f.address + f.size ≤ g.address ∨ g.address + g.size ≤ f.address

theorem SameOrApart.symm (h : SameOrApart f g) : SameOrApart g f := by
  obtain ⟨haddress, hsize⟩ | hbefore | hbehind := h
  · exact .inl ⟨haddress.symm, hsize.symm⟩
  · exact .inr (.inr hbefore)
  · exact .inr (.inl hbehind)

/-- Functions of some size that do not overlap, though some may be there again. -/
structure Separate (fs : List FunctionSymbol) : Prop where
  sized : ∀ f ∈ fs, 0 < f.size
  sameOrApart : fs.Pairwise SameOrApart

theorem Separate.of_mem (hfs : Separate fs) (hf : f ∈ fs) (hg : g ∈ fs) : SameOrApart f g :=
  have : Std.Symm SameOrApart := ⟨fun _ _ => SameOrApart.symm⟩
  hfs.sameOrApart.forall_of_forall (fun _ _ => .inl ⟨rfl, rfl⟩) hf hg

/-- Where one function has an address, the others that have it are those that start there too. -/
theorem Separate.covers_eq (hfs : Separate fs) (hf : f ∈ fs) (hcovers : f.covers a = true)
    (hg : g ∈ fs) : g.covers a = (g.address == f.address) := by
  have hpair := hfs.of_mem hf hg
  have hsized := hfs.sized g hg
  rw [Bool.eq_iff_iff, beq_iff_eq]
  rw [covers_iff] at hcovers ⊢
  unfold SameOrApart at hpair
  omega

/-! ### Sorting -/

/-- Functions by address; those with the same address stay in order. -/
def sorted (fs : List FunctionSymbol) : List FunctionSymbol :=
  fs.mergeSort fun f g => f.address ≤ g.address

theorem address_le_trans (f g k : FunctionSymbol) (hfg : decide (f.address ≤ g.address) = true)
    (hgk : decide (g.address ≤ k.address) = true) : decide (f.address ≤ k.address) = true :=
  decide_eq_true (Nat.le_trans (of_decide_eq_true hfg) (of_decide_eq_true hgk))

theorem address_le_total (f g : FunctionSymbol) :
    (decide (f.address ≤ g.address) || decide (g.address ≤ f.address)) = true := by
  rw [Bool.or_eq_true, decide_eq_true_iff, decide_eq_true_iff]
  exact Nat.le_total f.address g.address

section

variable (fs)

theorem pairwise_sorted : (sorted fs).Pairwise fun f g => f.address ≤ g.address :=
  (List.pairwise_mergeSort address_le_trans address_le_total fs).imp of_decide_eq_true

theorem perm_sorted : (sorted fs).Perm fs := List.mergeSort_perm fs _

theorem filter_sorted (a : ℕ) :
    (sorted fs).filter (·.address == a) = fs.filter (·.address == a) := by
  -- The functions with this address are sorted already, so they are found in order.
  have hsub : (fs.filter (·.address == a)).Sublist (sorted fs) := by
    refine List.sublist_mergeSort address_le_trans address_le_total ?_ List.filter_sublist
    refine List.pairwise_of_forall_mem_list fun f hf g hg => decide_eq_true ?_
    have hf := beq_iff_eq.mp (List.mem_filter.mp hf).2
    have hg := beq_iff_eq.mp (List.mem_filter.mp hg).2
    exact Nat.le_of_eq (hf.trans hg.symm)
  have hfilter := hsub.filter (·.address == a)
  rw [List.filter_filter] at hfilter
  simp only [Bool.and_self] at hfilter
  exact (hfilter.eq_of_length ((perm_sorted fs).filter _).length_eq.symm).symm

theorem find?_sorted (a : ℕ) :
    (sorted fs).find? (·.address == a) = fs.find? (·.address == a) := by
  rw [← List.head?_filter, ← List.head?_filter, filter_sorted]

end

/-! ### One function for each address -/

theorem distinctFrom_sublist (last : ℕ) (fs : List FunctionSymbol) :
    (distinctFrom last fs).Sublist fs := by
  induction fs generalizing last with
  | nil => exact .slnil
  | cons f fs ih =>
    rw [distinctFrom]
    split
    · exact (ih last).cons f
    · exact (ih f.address).cons_cons f

theorem pairwise_cons_distinctFrom
    (hfs : (f :: fs).Pairwise fun f g => f.address ≤ g.address) :
    (f :: distinctFrom f.address fs).Pairwise fun f g => f.address < g.address := by
  induction fs generalizing f with
  | nil => exact List.pairwise_singleton _ f
  | cons g gs ih =>
    obtain ⟨hf, hgs⟩ := List.pairwise_cons.mp hfs
    rw [distinctFrom]
    split
    next => exact ih (List.pairwise_cons.mpr ⟨fun k hk => hf k (.tail g hk), hgs.tail⟩)
    next hne =>
      have hlt : f.address < g.address := by
        have := hf g (.head gs)
        omega
      have hrest := ih hgs
      refine List.pairwise_cons.mpr ⟨fun k hk => ?_, hrest⟩
      obtain rfl | hk := List.mem_cons.mp hk
      · exact hlt
      · exact Nat.lt_trans hlt ((List.pairwise_cons.mp hrest).1 k hk)

/-- What goes has the address of one that stays in front of it. -/
theorem find?_cons_distinctFrom :
    (f :: distinctFrom f.address fs).find? (·.address == a) =
      (f :: fs).find? (·.address == a) := by
  induction fs generalizing f with
  | nil => rfl
  | cons g gs ih =>
    rw [distinctFrom]
    split
    next heq =>
      rw [ih, List.find?_cons, List.find?_cons, List.find?_cons, heq]
      split <;> rfl
    next =>
      rw [List.find?_cons, ih]
      rfl

section

variable (fs)

theorem table_eq : table fs = distinct (sorted fs) := rfl

theorem table_sublist : (table fs).Sublist (sorted fs) := by
  rw [table_eq]
  cases sorted fs with
  | nil => exact .slnil
  | cons f rest => exact (distinctFrom_sublist f.address rest).cons_cons f

theorem mem_of_mem_table (hf : f ∈ table fs) : f ∈ fs :=
  (perm_sorted fs).mem_iff.mp ((table_sublist fs).subset hf)

theorem pairwise_table : (table fs).Pairwise fun f g => f.address < g.address := by
  have hsorted := pairwise_sorted fs
  rw [table_eq]
  cases heq : sorted fs with
  | nil => exact .nil
  | cons f rest => exact pairwise_cons_distinctFrom (heq ▸ hsorted)

theorem find?_table (a : ℕ) : (table fs).find? (·.address == a) = fs.find? (·.address == a) := by
  rw [table_eq, ← find?_sorted fs]
  cases sorted fs with
  | nil => rfl
  | cons f rest => exact find?_cons_distinctFrom

end

/-! ### Looking up -/

/-- Each function ends before the ones behind it start. -/
def LaidOut (l : List FunctionSymbol) : Prop :=
  l.Pairwise fun f g => f.address + f.size ≤ g.address

theorem laidOut_table (hfs : Separate fs) : LaidOut (table fs) := by
  refine (pairwise_table fs).imp_of_mem fun {f g} hf hg hlt => ?_
  have hpair := hfs.of_mem (mem_of_mem_table fs hf) (mem_of_mem_table fs hg)
  have hsized := hfs.sized g (mem_of_mem_table fs hg)
  unfold SameOrApart at hpair
  omega

theorem at?_of_laidOut {l : List FunctionSymbol} (hl : LaidOut l) (hsized : ∀ f ∈ l, 0 < f.size) :
    at? l a = l.find? (·.covers a) := by
  induction l with
  | nil => rfl
  | cons f l ih =>
    obtain ⟨hf, hl⟩ := List.pairwise_cons.mp hl
    have ih := ih hl fun g hg => hsized g (.tail f hg)
    have hcontains : f.contains a = f.covers a := contains_eq_covers (hsized f (.head l))
    unfold at? at ih ⊢
    by_cases hstart : f.address ≤ a
    · have htake : (f :: l).takeWhile (·.address ≤ a) = f :: l.takeWhile (·.address ≤ a) :=
        List.takeWhile_cons_of_pos (decide_eq_true hstart)
      rw [htake, List.find?_cons, ← ih]
      cases hrest : l.takeWhile (·.address ≤ a) with
      | nil =>
        show (some f).filter (·.contains a) = _
        rw [Option.filter_some, hcontains]
        cases f.covers a <;> rfl
      | cons g gs =>
        -- Another function starts up to here, so this one ends before.
        have hg : g ∈ l.takeWhile (·.address ≤ a) := hrest ▸ List.mem_cons_self
        have hends := hf g ((List.takeWhile_prefix _).subset hg)
        have hstarts : g.address ≤ a := by
          simpa only [decide_eq_true_iff] using List.mem_takeWhile_imp hg
        have hnot : f.covers a = false := by
          rw [Bool.eq_false_iff, ne_eq, covers_iff]
          omega
        rw [hnot]
        rfl
    · have htake : (f :: l).takeWhile (·.address ≤ a) = [] :=
        List.takeWhile_cons_of_neg fun h => hstart (of_decide_eq_true h)
      rw [htake]
      symm
      refine List.find?_eq_none.mpr fun g hg hcovers => hstart ?_
      have hg_start := (covers_iff.mp hcovers).1
      obtain rfl | hg := List.mem_cons.mp hg
      · exact hg_start
      · have := hf g hg
        omega

/-- In the table of separate functions the look-up finds the first function with the address in its
range, of all that were read. -/
theorem at?_table (hfs : Separate fs) : at? (table fs) a = fs.find? (·.covers a) := by
  have hmem : ∀ f ∈ table fs, f ∈ fs := fun f => mem_of_mem_table fs
  rw [at?_of_laidOut (laidOut_table hfs) fun f hf => hfs.sized f (hmem f hf)]
  by_cases hsome : ∃ f ∈ fs, f.covers a = true
  · obtain ⟨f, hf, hcovers⟩ := hsome
    -- The functions with this address are those that start where this one does.
    calc (table fs).find? (·.covers a)
        = (table fs).find? (·.address == f.address) :=
          List.find?_congr fun g hg => hfs.covers_eq hf hcovers (hmem g hg)
      _ = fs.find? (·.address == f.address) := find?_table fs f.address
      _ = fs.find? (·.covers a) :=
          (List.find?_congr fun g hg => hfs.covers_eq hf hcovers hg).symm
  · have hnone : ∀ f ∈ fs, ¬ f.covers a = true := fun f hf hcovers => hsome ⟨f, hf, hcovers⟩
    rw [List.find?_eq_none.mpr hnone,
      List.find?_eq_none.mpr fun f hf => hnone f (hmem f hf)]

end FunctionSymbol

/-! ### Executables -/

namespace Executable

open Elf FunctionSymbol

variable {path : String} {d : FileData} {t : Tables} {x : Executable}

theorem functions_of_ofTables (hx : ofTables path d t = .ok x) :
    x.functions = table (t.symbols.filterMap functionOf?) := by
  unfold ofTables at hx
  cases hdebug : Elf.debugSections d t.header.encoding t.names t.sections debugSectionNames with
  | error fault => simp [hdebug, bind, Except.bind] at hx
  | ok debug =>
    simp only [hdebug, bind, Except.bind, pure, Except.pure, Except.ok.injEq] at hx
    rw [← hx]

/-- The functions of an executable are in the order of their addresses, and of the functions that
its symbols name each address has the first.  If those do not overlap, an address is found in the
one that has it in its range, and in none if none has. -/
theorem functionAt?_eq_find? (hx : ofTables path d t = .ok x) :
    (x.functions.Pairwise fun f g => f.address < g.address) ∧
      (∀ a, x.functions.find? (·.address == a) =
        (t.symbols.filterMap functionOf?).find? (·.address == a)) ∧
      (Separate (t.symbols.filterMap functionOf?) →
        ∀ a, x.functionAt? a = (t.symbols.filterMap functionOf?).find? (·.covers a)) := by
  have hfunctions := functions_of_ofTables hx
  refine ⟨?_, fun a => ?_, fun hseparate a => ?_⟩
  · rw [hfunctions]
    exact pairwise_table _
  · rw [hfunctions]
    exact find?_table _ a
  · rw [functionAt?, hfunctions]
    exact at?_table hseparate

/-- The tables of a file whose symbols name a function twice, and another one that comes before. -/
def repeatedTables : Tables where
  header := ⟨⟨true, .little⟩, 2, 62, 0, 0, 0, 0, 0, 0, 0⟩
  segments := []
  sections := []
  names := none
  symbols := [⟨some "run", 2, 1, some 1, 0x2000, 0x10⟩, ⟨some "start", 2, 1, some 1, 0x1000, 0x20⟩,
    ⟨some "run_alias", 2, 1, some 1, 0x2000, 0x10⟩]

theorem functionAt?_eq_find?_repeated :
    ∃ x, ofTables "demo" #[] repeatedTables = .ok x ∧
      x.functionAt? 0x200f = some ⟨0x2000, 0x10, "run"⟩ ∧
      x.functionAt? 0x101f = some ⟨0x1000, 0x20, "start"⟩ ∧
      x.functionAt? 0x1020 = none ∧ x.functionAt? 0x2010 = none := by
  have hread : repeatedTables.symbols.filterMap functionOf? =
      [⟨0x2000, 0x10, "run"⟩, ⟨0x1000, 0x20, "start"⟩, ⟨0x2000, 0x10, "run_alias"⟩] := rfl
  obtain ⟨x, hx⟩ : ∃ x, ofTables "demo" #[] repeatedTables = .ok x := ⟨_, rfl⟩
  have hseparate : Separate (repeatedTables.symbols.filterMap functionOf?) := by
    rw [hread]
    exact ⟨by simp, by simp [SameOrApart]⟩
  have hat := (functionAt?_eq_find? hx).2.2 hseparate
  simp only [hread] at hat
  exact ⟨x, hx, hat _, hat _, hat _, hat _⟩

end Executable

end Postmortem
