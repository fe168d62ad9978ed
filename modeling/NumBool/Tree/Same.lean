import NumBool.Tree.Basic

/-!
# Equality of open trees

Two trees are the same when they have the same kinds of nodes in the same places with
the same contents.  Plain values are compared by what they denote, so that a number
equals a decimal fraction of the same value, and a truth value the number zero or
one.  A node of an unknown kind equals no other node.
-/

namespace NumBool

namespace Datum

/-- The whole number that a truth value counts as. -/
def ofTruth (b : Bool) : Int :=
  if b then 1 else 0

/-- Whether two plain values denote the same. -/
def same : Datum → Datum → Bool
  | truth a, truth b => a = b
  | truth a, int n => ofTruth a = n
  | truth a, real x => x.isInt (ofTruth a)
  | int m, truth b => m = ofTruth b
  | int m, int n => m = n
  | int m, real x => x.isInt m
  | real x, truth b => x.isInt (ofTruth b)
  | real x, int n => x.isInt n
  | real x, real y => x.same y
  | text s, text t => s = t
  | _, _ => false

end Datum

mutual

/-- Whether two trees are the same. -/
def Node.same : Node → Node → Bool
  | .program xs, .program ys => sameNodes xs ys
  | .block xs, .block ys => sameNodes xs ys
  | .identifier x, .identifier y => x = y
  | .declaration t x, .declaration u y => t = u && x.same y
  | .assignment x e, .assignment y f => x.same y && e.same f
  | .branch c b a, .branch c' b' a' => c.same c' && b.same b' && a.same a'
  | .loop c b, .loop c' b' => c.same c' && b.same b'
  | .logical xs ops, .logical ys ops' => sameNodes xs ys && ops = ops'
  | .comparison l op r, .comparison l' op' r' => l.same l' && op = op' && r.same r'
  | .addition xs ops, .addition ys ops' => sameNodes xs ys && ops = ops'
  | .multiplication xs ops, .multiplication ys ops' => sameNodes xs ys && ops = ops'
  | .signed x ops, .signed y ops' => x.same y && ops = ops'
  | .negated x ops, .negated y ops' => x.same y && ops = ops'
  | .value x, .value y => x.same y
  | .int m, .int n => m = n
  | .truth a, .truth b => a = b
  | .absent, .absent => true
  | .datum d, .datum e => d.same e
  | .list xs, .list ys => sameNodes xs ys
  | _, _ => false

/-- Whether two lists hold the same trees in the same order. -/
def sameNodes : List Node → List Node → Bool
  | [], [] => true
  | x :: xs, y :: ys => x.same y && sameNodes xs ys
  | _, _ => false

end

end NumBool
