import PageMacro.Script.Term
import PageMacro.Script.Token

/-!
# Reading expressions and statements

Binary operators bind by level, from `or` up to the product operators; comparisons do not chain.
`Stmt.ofText?` reads a whole text as statements, `Expr.ofText?` as one expression. Every reader
takes a bound on how deep it goes, computed from the number of tokens.
-/

namespace PageMacro.Script

namespace Grammar

/-- Reading takes tokens from the front, or fails. -/
abbrev Reading := StateT (List Token) Option

/-- The next token, left in place. -/
def peek : Reading (Option Token) := return (← get).head?

/-- Whether the next token is `t`. -/
def at_ (t : Token) : Reading Bool := return (← peek) == some t

/-- Drops the next token. -/
def skip : Reading Unit := modify List.tail

/-- Drops the next token if it is `t`, and says whether it was. -/
def take (t : Token) : Reading Bool := do
  if ← at_ t then skip; return true else return false

/-- The next token must be `t`. -/
def need (t : Token) : Reading Unit := do
  if ← take t then return else failure

/-- The next token must be a name. -/
def needName : Reading String := do
  match ← peek with
  | some (.name s) => skip; return s
  | _ => failure

/-- Whether a list of expressions without brackets ends here. -/
def listEnds : Reading Bool := do
  match ← peek with
  | none => return true
  | some .newline => return true
  | some (.mark m) => return ["=", "\x7d", "]", ")", ";"].contains m
  | _ => return false

/-- What a binary operator does, and its level. -/
inductive Infix where
  | both | either
  | op (o : BinaryOp)

/-- The operators of marks and words, with their levels. -/
def operators : List (Token × Infix × Nat) :=
  [(.keyword "or", .either, 0), (.keyword "and", .both, 1),
    (.mark "==", .op .eq, 3), (.mark "!=", .op .ne, 3), (.mark "<", .op .lt, 3),
    (.mark ">", .op .gt, 3), (.mark "<=", .op .le, 3), (.mark ">=", .op .ge, 3),
    (.keyword "in", .op .isIn, 3), (.mark "|", .op .bitOr, 4), (.mark "^", .op .bitXor, 5),
    (.mark "&", .op .bitAnd, 6), (.mark "<<", .op .shiftLeft, 7), (.mark ">>", .op .shiftRight, 7),
    (.mark "-", .op .sub, 8), (.mark "+", .op .add, 8), (.mark "*", .op .mul, 9),
    (.mark "%", .op .mod, 9), (.mark "/", .op .div, 9), (.mark "//", .op .floorDiv, 9)]

/-- The level of `not`. -/
def notLevel : Nat := 2

/-- The level of comparisons. -/
def comparisonLevel : Nat := 3

/-- The level above all operators. -/
def topLevel : Nat := 10

/-- The operator that comes next, its level, and how many tokens it has. -/
def operator? : List Token → Option (Infix × Nat × Nat)
  | .keyword "not" :: .keyword "in" :: _ => some (.op .notIn, comparisonLevel, 2)
  | t :: _ => (operators.find? (·.1 == t)).map fun (_, o, level) => (o, level, 1)
  | [] => none

/-- Applies an operator. -/
def Infix.apply : Infix → Expr → Expr → Expr
  | both, x, y => .both x y
  | either, x, y => .either x y
  | op o, x, y => .binary o x y

/-- The assignments that update. -/
def updates : List (String × BinaryOp) :=
  [("+=", .add), ("-=", .sub), ("*=", .mul), ("/=", .div), ("//=", .floorDiv), ("%=", .mod),
    ("&=", .bitAnd), ("|=", .bitOr), ("^=", .bitXor), ("<<=", .shiftLeft), (">>=", .shiftRight)]

/-- Plain arguments come first, then named ones without repetition, then at most one sequence and
one dictionary. -/
def argsInOrder : List Arg → Nat → List String → Bool
  | [], _, _ => true
  | .plain _ :: rest, stage, names => stage == 0 && argsInOrder rest 0 names
  | .named name _ :: rest, stage, names =>
    stage ≤ 1 && !names.contains name && argsInOrder rest 1 (name :: names)
  | .items _ :: rest, stage, names => stage ≤ 1 && argsInOrder rest 2 names
  | .entries _ :: rest, stage, names => stage ≤ 2 && argsInOrder rest 3 names

/-- Required parameters come before optional ones, except after the sequence parameter; a dictionary
parameter comes last; a nameless sequence parameter has parameters after it. -/
def paramsInOrder : List Param → Bool → Bool → Bool
  | [], _, _ => true
  | .required _ :: rest, optional, items => (items || !optional) && paramsInOrder rest optional items
  | .optional _ _ :: rest, _, items => paramsInOrder rest true items
  | .items name :: rest, optional, items =>
    !items && (name.isSome || rest.any isNamed) && paramsInOrder rest optional true
  | .entries _ :: rest, _, _ => rest.isEmpty
where
  /-- Whether a parameter takes one argument. -/
  isNamed : Param → Bool
    | .required _ => true
    | .optional _ _ => true
    | _ => false

/-- Whether no two parameters share a name. -/
def paramsDistinct (params : List Param) : Bool :=
  let names := params.filterMap Param.name?
  names.eraseDups.length == names.length

mutual

/-- An expression, or a tuple without brackets; inside brackets it may end with a comma. -/
def expression : Nat → Bool → Reading Expr
  | 0, _ => failure
  | n + 1, inBrackets => do
    let x ← test n
    if ← at_ (.mark ",") then return .tuple (← moreItems n inBrackets [x]) else return x

/-- The items after the first, each after a comma. -/
def moreItems : Nat → Bool → List Expr → Reading (List Expr)
  | 0, _, _ => failure
  | n + 1, trailing, items => do
    if ← take (.mark ",") then
      if ← listEnds then (if trailing then return items else failure)
      else moreItems n trailing (items ++ [← test n])
    else return items

/-- An expression without a bare comma. -/
def test : Nat → Reading Expr
  | 0 => failure
  | n + 1 => do
    if ← at_ (.keyword "lambda") then function n true
    else
      let x ← level n 0
      if ← take (.keyword "if") then
        let c ← level n 0
        need (.keyword "else")
        return .cond c x (← test n)
      else return x

/-- An expression of a clause, without a bare condition. -/
def plainTest : Nat → Reading Expr
  | 0 => failure
  | n + 1 => do if ← at_ (.keyword "lambda") then function n false else level n 0

/-- A function without a name. -/
def function : Nat → Bool → Reading Expr
  | 0, _ => failure
  | n + 1, whole => do
    let id := (← get).length
    need (.keyword "lambda")
    let params ← parameters n ":"
    need (.mark ":")
    return .lambda id params (← if whole then test n else plainTest n)

/-- Operators of a level and above. -/
def level : Nat → Nat → Reading Expr
  | 0, _ => failure
  | n + 1, l => do
    if l ≥ topLevel then suffixes n (← primary n)
    else
      let negated ← if l == notLevel then take (.keyword "not") else pure false
      if negated then return .unary .not (← level n l)
      else operands n l true (← level n (l + 1))

/-- The operators of a level and above that follow a first operand. -/
def operands : Nat → Nat → Bool → Expr → Reading Expr
  | 0, _, _, _ => failure
  | n + 1, l, first, x => do
    match operator? (← get) with
    | none => return x
    | some (o, l', width) =>
      if l' < l then return x
      else if !first && l' == comparisonLevel then failure
      else
        modify (List.drop width)
        operands n l false (o.apply x (← level n (l' + 1)))

/-- Fields, indices and calls that follow an expression. -/
def suffixes : Nat → Expr → Reading Expr
  | 0, _ => failure
  | n + 1, x => do
    if ← take (.mark ".") then suffixes n (.field x (← needName))
    else if ← take (.mark "[") then suffixes n (← indexing n x)
    else if ← take (.mark "(") then
      let args ← arguments n []
      need (.mark ")")
      if argsInOrder args 0 [] then suffixes n (.call x args) else failure
    else return x

/-- An index or a part of a sequence, after the bracket. -/
def indexing : Nat → Expr → Reading Expr
  | 0, _ => failure
  | n + 1, x => do
    let absent := Expr.const .none
    let start ← if ← at_ (.mark ":") then pure absent else expression n false
    if !(← at_ (.mark ":")) then
      need (.mark "]")
      return .index x start
    skip
    let stop ← if (← at_ (.mark ":")) || (← at_ (.mark "]")) then pure absent else test n
    let step ← if ← take (.mark ":") then
        if ← at_ (.mark "]") then pure absent else test n
      else pure absent
    need (.mark "]")
    return .slice x start stop step

/-- The arguments of a call, up to the bracket. -/
def arguments : Nat → List Arg → Reading (List Arg)
  | 0, _ => failure
  | n + 1, args => do
    if ← at_ (.mark ")") then return args
    if !args.isEmpty then need (.mark ",")
    if ← at_ (.mark ")") then return args
    if ← take (.mark "*") then arguments n (args ++ [.items (← test n)])
    else if ← take (.mark "**") then arguments n (args ++ [.entries (← test n)])
    else
      let x ← test n
      if ← take (.mark "=") then
        match x with
        | .name s => arguments n (args ++ [.named s (← test n)])
        | _ => failure
      else arguments n (args ++ [.plain x])

/-- The parameters of a function, up to the mark that ends them. -/
def parameters : Nat → String → Reading (List Param)
  | 0, _ => failure
  | n + 1, stop => do
    let params ← moreParameters n stop []
    if paramsInOrder params false false && paramsDistinct params then return params else failure

/-- The parameters that follow some. -/
def moreParameters : Nat → String → List Param → Reading (List Param)
  | 0, _, _ => failure
  | n + 1, stop, params => do
    if ← at_ (.mark stop) then return params
    if !params.isEmpty then need (.mark ",")
    if stop == ")" && (← at_ (.mark stop)) then return params
    if ← take (.mark "**") then moreParameters n stop (params ++ [.entries (← needName)])
    else if ← take (.mark "*") then
      match ← peek with
      | some (.name s) => skip; moreParameters n stop (params ++ [.items (some s)])
      | _ => moreParameters n stop (params ++ [.items none])
    else
      let name ← needName
      if ← take (.mark "=") then moreParameters n stop (params ++ [.optional name (← test n)])
      else moreParameters n stop (params ++ [.required name])

/-- A name, a constant, a bracketed expression or a signed one. -/
def primary : Nat → Reading Expr
  | 0 => failure
  | n + 1 => do
    match ← peek with
    | some (.name s) => skip; return .name s
    | some (.int k) => skip; return .const (.int k)
    | some (.float x) => skip; return .const (.float x)
    | some (.str s) => skip; return .const (.str s)
    | some (.bytes s) => skip; return .const (.bytes s)
    | some (.mark "-") => skip; return .unary .minus (← suffixes n (← primary n))
    | some (.mark "+") => skip; return .unary .plus (← suffixes n (← primary n))
    | some (.mark "~") => skip; return .unary .complement (← suffixes n (← primary n))
    | some (.mark "(") =>
      skip
      if ← take (.mark ")") then return .tuple []
      let x ← expression n true
      need (.mark ")")
      return x
    | some (.mark "[") =>
      skip
      if ← take (.mark "]") then return .list []
      let x ← test n
      if ← at_ (.keyword "for") then return .listOf x (← clauses n "]" [])
      let items ← moreItems n true [x]
      need (.mark "]")
      return .list items
    | some (.mark "\x7b") =>
      skip
      if ← take (.mark "\x7d") then return .dict []
      let key ← test n
      need (.mark ":")
      let value ← test n
      if ← at_ (.keyword "for") then return .dictOf key value (← clauses n "\x7d" [])
      let entries ← moreEntries n [.mk key value]
      need (.mark "\x7d")
      return .dict entries
    | _ => failure

/-- The entries after the first, each after a comma. -/
def moreEntries : Nat → List Entry → Reading (List Entry)
  | 0, _ => failure
  | n + 1, entries => do
    if ← take (.mark ",") then
      if ← at_ (.mark "\x7d") then return entries
      let key ← test n
      need (.mark ":")
      moreEntries n (entries ++ [.mk key (← test n)])
    else return entries

/-- The clauses of a comprehension and the bracket that ends them. -/
def clauses : Nat → String → List Clause → Reading (List Clause)
  | 0, _, _ => failure
  | n + 1, stop, found => do
    if ← take (.mark stop) then return found
    else if ← take (.keyword "for") then
      let target ← loopTarget n
      need (.keyword "in")
      clauses n stop (found ++ [.each target (← level n 0)])
    else if ← take (.keyword "if") then clauses n stop (found ++ [.test (← plainTest n)])
    else failure

/-- What a loop assigns to. -/
def loopTarget : Nat → Reading Expr
  | 0 => failure
  | n + 1 => do
    let x ← suffixes n (← primary n)
    if ← at_ (.mark ",") then return .tuple (← moreTargets n [x]) else return x

/-- The targets after the first. -/
def moreTargets : Nat → List Expr → Reading (List Expr)
  | 0, _ => failure
  | n + 1, found => do
    if ← take (.mark ",") then
      if ← listEnds then return found
      moreTargets n (found ++ [← suffixes n (← primary n)])
    else return found

end

/-! ## Statements -/

/-- The names that a file gives to what it takes from another. -/
def loadNames : Nat → List String → Reading (List String)
  | 0, _ => failure
  | n + 1, names => do
    if ← take (.mark ")") then
      if names.isEmpty then failure else return names
    need (.mark ",")
    if ← at_ (.mark ")") then loadNames n names
    else match ← peek with
      | some (.str s) => skip; loadNames n (names ++ [s])
      | some (.name s) =>
        skip
        need (.mark "=")
        match ← peek with
        | some (.str _) => skip; loadNames n (names ++ [s])
        | _ => failure
      | _ => failure

/-- A statement without a block. -/
def smallStatement (n : Nat) : Reading Stmt := do
  match ← peek with
  | some (.keyword "return") =>
    skip
    match ← peek with
    | none => return .give (.const .none)
    | some .newline => return .give (.const .none)
    | some (.mark ";") => return .give (.const .none)
    | _ => return .give (← expression n false)
  | some (.keyword "break") => skip; return .leave
  | some (.keyword "continue") => skip; return .next
  | some (.keyword "pass") => skip; return .pass
  | some (.keyword "load") =>
    skip
    need (.mark "(")
    match ← peek with
    | some (.str _) => skip; return .load (← loadNames n [])
    | _ => failure
  | _ =>
    let x ← expression n false
    match ← peek with
    | some (.mark "=") => skip; return .assign x (← expression n false)
    | some (.mark m) =>
      match updates.lookup m with
      | some op => skip; return .update op x (← expression n false)
      | none => return .expr x
    | _ => return .expr x

/-- The statements of one line. -/
def line : Nat → Reading (List Stmt)
  | 0 => failure
  | n + 1 => do
    let s ← smallStatement n
    if ← take (.mark ";") then
      if (← take .newline) || (← peek).isNone then return [s]
      return s :: (← line n)
    else if (← take .newline) || (← peek).isNone then return [s]
    else failure

mutual

/-- A statement, or the statements of a line. -/
def statement : Nat → Reading (List Stmt)
  | 0 => failure
  | n + 1 => do
    match ← peek with
    | some (.keyword "def") =>
      let id := (← get).length
      skip
      let name ← needName
      need (.mark "(")
      let params ← parameters n ")"
      need (.mark ")")
      return [.define name id params (← block n)]
    | some (.keyword "if") => skip; return [← conditional n]
    | some (.keyword "for") =>
      skip
      let target ← loopTarget n
      need (.keyword "in")
      let source ← expression n false
      return [.each target source (← block n)]
    | some (.keyword "while") =>
      skip
      let c ← test n
      return [.repeated c (← block n)]
    | _ => line n

/-- The rest of a conditional statement. -/
def conditional : Nat → Reading Stmt
  | 0 => failure
  | n + 1 => do
    let c ← test n
    let yes ← block n
    if ← take (.keyword "elif") then return .cond c yes [← conditional n]
    else if ← take (.keyword "else") then return .cond c yes (← block n)
    else return .cond c yes []

/-- A colon and the statements under it. -/
def block : Nat → Reading (List Stmt)
  | 0 => failure
  | n + 1 => do
    need (.mark ":")
    if ← take .newline then
      need .indent
      blockRest n []
    else line n

/-- The statements up to the end of a block. -/
def blockRest : Nat → List Stmt → Reading (List Stmt)
  | 0, _ => failure
  | n + 1, found => do
    if ← take .outdent then return found
    else if (← peek).isNone then failure
    else blockRest n (found ++ (← statement n))

end

/-- The statements of a whole text. -/
def file : Nat → List Stmt → Reading (List Stmt)
  | 0, _ => failure
  | n + 1, found => do
    if (← peek).isNone then return found
    else if ← take .newline then file n found
    else file n (found ++ (← statement n))

/-- How deep a reader can go into so many tokens: no more than a score of readers without taking
one. -/
def depthFor (tokens : List Token) : Nat := 20 * (tokens.length + 2)

end Grammar

/-- The expression that a text is. -/
def Expr.ofText? (s : String) : Option Expr := do
  let tokens ← Token.ofText? s
  let (x, rest) ← (Grammar.expression (Grammar.depthFor tokens) false).run tokens
  if rest.isEmpty || rest == [.newline] then some x else none

/-- The statements that a text is. -/
def Stmt.ofText? (s : String) : Option (List Stmt) := do
  let tokens ← Token.ofText? s
  let (found, _) ← (Grammar.file (Grammar.depthFor tokens) []).run tokens
  return found

end PageMacro.Script
