import Frontend.BindingPower

/-!
# Handlers

Which tokens begin a statement, begin an operand, or join two operands is a table over kinds. The
standard table is that of the language. Further kinds may be given handlers, or given other ones;
binding powers stay as they are.
-/
namespace Frontend

/-- How a statement is read. -/
inductive StatementHandler where
  | binding
  | returning
  | bare
  deriving DecidableEq, Repr

/-- How the beginning of an expression is read. -/
inductive LeadingHandler where
  /-- A name or an integer. -/
  | operand
  /-- An operator before its operand. -/
  | unary
  deriving DecidableEq, Repr

structure Handlers where
  /-- How a statement that begins with the kind is read. -/
  statement : Kind → Option StatementHandler
  /-- How an expression that begins with the kind is read. -/
  leading : Kind → Option LeadingHandler
  /-- Whether the kind joins two operands. -/
  joining : Kind → Bool

namespace Handlers

def empty : Handlers := ⟨fun _ => none, fun _ => none, fun _ => false⟩

/-- The table in which statements that begin with `kind` have the given handler. -/
def withStatement (h : Handlers) (kind : Kind) (handler : StatementHandler) : Handlers :=
  { h with statement := fun other => if other = kind then some handler else h.statement other }

/-- The table in which expressions that begin with `kind` have the given handler. -/
def withLeading (h : Handlers) (kind : Kind) (handler : LeadingHandler) : Handlers :=
  { h with leading := fun other => if other = kind then some handler else h.leading other }

/-- The table in which `kind` joins operands. -/
def withJoining (h : Handlers) (kind : Kind) : Handlers :=
  { h with joining := fun other => if other = kind then true else h.joining other }

/-- The operators between two operands. -/
def standardJoining : List Kind :=
  [.equals, .notEquals, .less, .greater, .plus, .dash, .star, .slash]

/-- The kinds that begin an expression. -/
def standardLeading : List (Kind × LeadingHandler) :=
  [(.identifier, .operand), (.integer, .operand), (.not, .unary), (.dash, .unary)]

/-- The kinds that begin a statement other than a bare expression. -/
def standardStatements : List (Kind × StatementHandler) :=
  [(.letKeyword, .binding), (.returnKeyword, .returning)]

/-- The table with the handlers of the language put over those that it has. -/
def withStandard (h : Handlers) : Handlers :=
  let joining := standardJoining.foldl withJoining h
  let leading := standardLeading.foldl (fun h (kind, handler) => h.withLeading kind handler) joining
  standardStatements.foldl (fun h (kind, handler) => h.withStatement kind handler) leading

def standard : Handlers := empty.withStandard

/-! ### The kinds that have handlers, in the order of their names -/

def statementKinds (h : Handlers) : List Kind :=
  Kind.all.filter fun kind => (h.statement kind).isSome

def leadingKinds (h : Handlers) : List Kind :=
  Kind.all.filter fun kind => (h.leading kind).isSome

def joiningKinds (h : Handlers) : List Kind := Kind.all.filter h.joining

end Handlers

end Frontend
