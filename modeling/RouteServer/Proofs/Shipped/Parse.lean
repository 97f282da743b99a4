import RouteServer.Shipped.Basic
import RouteServer.Template.Parser

/-!
# Shipped — parsing

What a template parses to is checked by evaluation, on the characters of its lines
(`parse_of_parsesTo`).  Whether two pieces of syntax are equal is found by recursion on the first
(`eq_of_agreeAll`).
-/

namespace RouteServer.Template

mutual
/-- Whether two expressions are equal. -/
def Expr.agrees : Expr → Expr → Bool
  | .literal c, .literal d => c = d
  | .var m, .var n => m = n
  | .attr a m, .attr b n => a.agrees b && m = n
  | .item a i, .item b j => a.agrees b && i.agrees j
  | .filter m a as, .filter n b bs => m = n && a.agrees b && agreeArgs as bs
  | .test m a as, .test n b bs => m = n && a.agrees b && agreeArgs as bs
  | .call a as, .call b bs => a.agrees b && agreeArgs as bs
  | .list as, .list bs => agreeArgs as bs
  | .dict as, .dict bs => agreeEntries as bs
  | .not a, .not b => a.agrees b
  | .negate a, .negate b => a.agrees b
  | .and a b, .and c d => a.agrees c && b.agrees d
  | .or a b, .or c d => a.agrees c && b.agrees d
  | .compare o a b, .compare p c d => o = p && a.agrees c && b.agrees d
  | .contains a b, .contains c d => a.agrees c && b.agrees d
  | .concat a b, .concat c d => a.agrees c && b.agrees d
  | .add a b, .add c d => a.agrees c && b.agrees d
  | .subtract a b, .subtract c d => a.agrees c && b.agrees d
  | .multiply a b, .multiply c d => a.agrees c && b.agrees d
  | .choose t a b, .choose u c d => t.agrees u && a.agrees c && b.agrees d
  | .guard t a, .guard u b => t.agrees u && a.agrees b
  | _, _ => false

/-- Whether two lists of expressions are equal. -/
def agreeArgs : List Expr → List Expr → Bool
  | [], [] => true
  | a :: as, b :: bs => a.agrees b && agreeArgs as bs
  | _, _ => false

/-- Whether the entries of two dictionaries are equal. -/
def agreeEntries : List (Expr × Expr) → List (Expr × Expr) → Bool
  | [], [] => true
  | (a, b) :: as, (c, d) :: bs => a.agrees c && b.agrees d && agreeEntries as bs
  | _, _ => false
end

mutual
/-- Whether two statements are equal. -/
def Stmt.agrees : Stmt → Stmt → Bool
  | .text s, .text t => s = t
  | .print a, .print b => a.agrees b
  | .branch a as bs, .branch b cs ds => a.agrees b && agreeAll as cs && agreeAll bs ds
  | .loop t a p as bs, .loop u b q cs ds =>
    t = u && a.agrees b && agreePass p q && agreeAll as cs && agreeAll bs ds
  | .bind t a, .bind u b => t = u && a.agrees b
  | .embed a m, .embed b n => a.agrees b && m = n
  | .take a ms, .take b ns => a.agrees b && ms = ns
  | .snippet m ps as, .snippet n qs bs => m = n && ps = qs && agreeAll as bs
  | _, _ => false

/-- Whether what two loops let pass is equal. -/
def agreePass : Option Expr → Option Expr → Bool
  | none, none => true
  | some a, some b => a.agrees b
  | _, _ => false

/-- Whether two lists of statements are equal. -/
def agreeAll : List Stmt → List Stmt → Bool
  | [], [] => true
  | a :: as, b :: bs => a.agrees b && agreeAll as bs
  | _, _ => false
end

mutual
theorem Expr.eq_of_agrees : ∀ {a b : Expr}, a.agrees b → a = b
  | .literal c, b, h => by
      cases b <;> simp only [Expr.agrees, decide_eq_true_eq, Bool.false_eq_true] at h
      rw [h]
  | .var m, b, h => by
      cases b <;> simp only [Expr.agrees, decide_eq_true_eq, Bool.false_eq_true] at h
      rw [h]
  | .attr a m, b, h => by
      cases b <;> simp only [Expr.agrees, Bool.and_eq_true, decide_eq_true_eq,
        Bool.false_eq_true] at h
      rw [Expr.eq_of_agrees h.1, h.2]
  | .filter m a as, b, h | .test m a as, b, h => by
      cases b <;> simp only [Expr.agrees, Bool.and_eq_true, decide_eq_true_eq,
        Bool.false_eq_true] at h
      rw [h.1.1, Expr.eq_of_agrees h.1.2, args_eq_of_agree h.2]
  | .call a as, b, h => by
      cases b <;> simp only [Expr.agrees, Bool.and_eq_true, Bool.false_eq_true] at h
      rw [Expr.eq_of_agrees h.1, args_eq_of_agree h.2]
  | .list as, b, h => by
      cases b <;> simp only [Expr.agrees, Bool.false_eq_true] at h
      rw [args_eq_of_agree h]
  | .dict as, b, h => by
      cases b <;> simp only [Expr.agrees, Bool.false_eq_true] at h
      rw [entries_eq_of_agree h]
  | .not a, b, h | .negate a, b, h => by
      cases b <;> simp only [Expr.agrees, Bool.false_eq_true] at h
      rw [Expr.eq_of_agrees h]
  | .compare o a c, b, h => by
      cases b <;> simp only [Expr.agrees, Bool.and_eq_true, decide_eq_true_eq,
        Bool.false_eq_true] at h
      rw [h.1.1, Expr.eq_of_agrees h.1.2, Expr.eq_of_agrees h.2]
  | .item a c, b, h | .and a c, b, h | .or a c, b, h | .contains a c, b, h | .concat a c, b, h
  | .add a c, b, h | .subtract a c, b, h | .multiply a c, b, h | .guard a c, b, h => by
      cases b <;> simp only [Expr.agrees, Bool.and_eq_true, Bool.false_eq_true] at h
      rw [Expr.eq_of_agrees h.1, Expr.eq_of_agrees h.2]
  | .choose t a c, b, h => by
      cases b <;> simp only [Expr.agrees, Bool.and_eq_true, Bool.false_eq_true] at h
      rw [Expr.eq_of_agrees h.1.1, Expr.eq_of_agrees h.1.2, Expr.eq_of_agrees h.2]

theorem args_eq_of_agree : ∀ {as bs : List Expr}, agreeArgs as bs → as = bs
  | [], bs, h => by
      cases bs <;> simp only [agreeArgs, Bool.false_eq_true] at h
      rfl
  | a :: as, bs, h => by
      cases bs <;> simp only [agreeArgs, Bool.and_eq_true, Bool.false_eq_true] at h
      rw [Expr.eq_of_agrees h.1, args_eq_of_agree h.2]

theorem entries_eq_of_agree : ∀ {as bs : List (Expr × Expr)}, agreeEntries as bs → as = bs
  | [], bs, h => by
      cases bs <;> simp only [agreeEntries, Bool.false_eq_true] at h
      rfl
  | (a, c) :: as, bs, h => by
      cases bs <;> simp only [agreeEntries, Bool.and_eq_true, Bool.false_eq_true] at h
      rw [Expr.eq_of_agrees h.1.1, Expr.eq_of_agrees h.1.2, entries_eq_of_agree h.2]
end

theorem pass_eq_of_agree : ∀ {p q : Option Expr}, agreePass p q → p = q
  | none, q, h => by
      cases q <;> simp only [agreePass, Bool.false_eq_true] at h
      rfl
  | some a, q, h => by
      cases q <;> simp only [agreePass, Bool.false_eq_true] at h
      rw [Expr.eq_of_agrees h]

mutual
theorem Stmt.eq_of_agrees : ∀ {a b : Stmt}, a.agrees b → a = b
  | .text s, b, h => by
      cases b <;> simp only [Stmt.agrees, decide_eq_true_eq, Bool.false_eq_true] at h
      rw [h]
  | .print a, b, h => by
      cases b <;> simp only [Stmt.agrees, Bool.false_eq_true] at h
      rw [Expr.eq_of_agrees h]
  | .branch t as bs, b, h => by
      cases b <;> simp only [Stmt.agrees, Bool.and_eq_true, Bool.false_eq_true] at h
      rw [Expr.eq_of_agrees h.1.1, eq_of_agreeAll h.1.2, eq_of_agreeAll h.2]
  | .loop t a p as bs, b, h => by
      cases b <;> simp only [Stmt.agrees, Bool.and_eq_true, decide_eq_true_eq,
        Bool.false_eq_true] at h
      rw [h.1.1.1.1, Expr.eq_of_agrees h.1.1.1.2, pass_eq_of_agree h.1.1.2,
        eq_of_agreeAll h.1.2, eq_of_agreeAll h.2]
  | .bind t a, b, h => by
      cases b <;> simp only [Stmt.agrees, Bool.and_eq_true, decide_eq_true_eq,
        Bool.false_eq_true] at h
      rw [h.1, Expr.eq_of_agrees h.2]
  | .embed a m, b, h | .take a m, b, h => by
      cases b <;> simp only [Stmt.agrees, Bool.and_eq_true, decide_eq_true_eq,
        Bool.false_eq_true] at h
      rw [Expr.eq_of_agrees h.1, h.2]
  | .snippet n ps as, b, h => by
      cases b <;> simp only [Stmt.agrees, Bool.and_eq_true, decide_eq_true_eq,
        Bool.false_eq_true] at h
      rw [h.1.1, h.1.2, eq_of_agreeAll h.2]

/-- **What agrees is equal.** -/
theorem eq_of_agreeAll : ∀ {as bs : List Stmt}, agreeAll as bs → as = bs
  | [], bs, h => by
      cases bs <;> simp only [agreeAll, Bool.false_eq_true] at h
      rfl
  | a :: as, bs, h => by
      cases bs <;> simp only [agreeAll, Bool.and_eq_true, Bool.false_eq_true] at h
      rw [Stmt.eq_of_agrees h.1, eq_of_agreeAll h.2]
end

end RouteServer.Template

namespace RouteServer.Shipped

open RouteServer.Template

theorem toList_ofLines (lines : List String) :
    (ofLines lines).toList = lines.flatMap fun l => l.toList ++ ['\n'] := by
  unfold ofLines
  simp [String.toList_join, List.flatMap_map]

/-- Whether characters parse to some statements. -/
def parsesTo (cs : List Char) (body : List Stmt) : Bool :=
  let parsed := do
    let ts ← Token.ofChars? cs
    let (body, rest) ← Parser.stmts (20 * ts.length + 20) ts
    if rest = [] then some body else none
  match parsed with
  | some found => agreeAll found body
  | none => false

theorem parse_of_parsesTo {lines : List String} {body : List Stmt}
    (h : parsesTo (lines.flatMap fun l => l.toList ++ ['\n']) body = true) :
    parse (ofLines lines) = some body := by
  unfold parsesTo at h
  unfold parse
  rw [toList_ofLines]
  simp only at h
  split at h
  case h_1 found hfound => rw [hfound, eq_of_agreeAll h]
  case h_2 => cases h

end RouteServer.Shipped
