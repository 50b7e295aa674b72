import TemplateTree.Expression
import TemplateTree.Options
import TemplateTree.Program.Emitter
import TemplateTree.Program.Piece
import TemplateTree.Text.Escaped

/-
  Programs that render a template.

  Key definitions include:
    * `GeneratorStyle`
    * `Generator`
    * `Generator.write`
    * `Generator.walkArg`
    * `Generator.generate`
    * `Generator.ofOptions`

  A program is the body of a block that evaluates to the
  rendered text.  It either appends every piece of output to
  one string, or collects the pieces and joins them at the
  end.  The two styles differ only in how a piece is spelled,
  and one walk over the tree puts out the pieces of both.
-/

------------------------------------------------------------
-- Statements
------------------------------------------------------------

namespace TemplateTree

/- How a program builds its output. -/
inductive GeneratorStyle where
| buffer
| array
deriving DecidableEq, Repr

/- The name of a style. -/
def GeneratorStyle.name : GeneratorStyle → String
| .buffer => "buffer"
| .array => "array"

/- A style together with the variable that holds the output. -/
structure Generator where
  style : GeneratorStyle
  output : String
deriving DecidableEq, Repr

namespace Generator

/- The line that starts a program. -/
def preamble (g : Generator) : String :=
  match g.style with
  | .buffer => "let mut " ++ g.output ++ " = String::new();"
  | .array => "let mut " ++ g.output ++ ": Vec<String> = Vec::new();"

/- The line that adds a static text. -/
def staticLine
    (g : Generator)
    (text : String) : String :=
  match g.style with
  | .buffer =>
      g.output ++ ".push_str(" ++ Text.stringLiteral text ++ ");"
  | .array =>
      g.output ++ ".push(String::from(" ++ Text.stringLiteral text
        ++ "));"

/- The line that adds the value of an expression. -/
def dynamicLine
    (g : Generator)
    (expression : String) : String :=
  match g.style with
  | .buffer =>
      g.output ++ ".push_str(&(" ++ expression ++ ").to_string());"
  | .array =>
      g.output ++ ".push((" ++ expression ++ ").to_string());"

/- The line that ends a program. -/
def postamble (g : Generator) : String :=
  match g.style with
  | .buffer => g.output
  | .array => g.output ++ ".concat()"

/- Put out what a piece is spelled as. -/
def write
    (g : Generator)
    (out : Emitter) :
    Piece → Emitter
| .static text => out.pushLine (g.staticLine text)
| .dynamic expression => out.pushLine (g.dynamicLine expression)
| .block code => out.pushCode code

------------------------------------------------------------
-- Walking
------------------------------------------------------------

/- Put out a static text, unless it is empty. -/
def writeStatic
    (g : Generator)
    (out : Emitter)
    (text : String) : Emitter :=
  if text = "" then out else g.write out (.static text)

mutual

/- Put out the pieces of a tree below an argument. -/
def walkArg
    (g : Generator)
    (parent : Node) :
    Arg → Emitter → Except CompileError Emitter
| .literal value, _ =>
    .error
      ((Piece.Fault.literalInSequence value.kind).on g.style.name
        parent)
| .node tag args, out =>
    let node : Node := ⟨tag, args⟩
    match Tag.core? tag with
    | some .sequence => walkArgs g node args out
    | some .static =>
        ((Piece.singleText node).map (g.writeStatic out)).mapError
          (Piece.Fault.on g.style.name node)
    | some .dynamic =>
        ((Piece.codeText node).map fun code =>
          g.write out (.dynamic code)).mapError
            (Piece.Fault.on g.style.name node)
    | some .block =>
        ((Piece.codeText node).map fun code =>
          g.write out (.block code)).mapError
            (Piece.Fault.on g.style.name node)
    | none => .error (Piece.Fault.foreign.on g.style.name node)

/- Put out the arguments of a sequence, one after another. -/
def walkArgs
    (g : Generator)
    (parent : Node) :
    List Arg → Emitter → Except CompileError Emitter
| [], out => .ok out
| arg :: args, out =>
    (walkArg g parent arg out).bind (walkArgs g parent args)

end

/- The program of a tree. -/
def generate
    (g : Generator)
    (node : Node) : Except CompileError String :=
  let start := Emitter.empty.pushLine g.preamble
  (g.walkArg node node.toArg start).map fun out =>
    (out.pushLine g.postamble).code

------------------------------------------------------------
-- Options
------------------------------------------------------------

/- The variable of a program unless an option names another. -/
def defaultVariable : String :=
  "_buf"

/- The option that names the variable of a style. -/
def bufferSpec (style : GeneratorStyle) : OptionSpec where
  name := "buffer"
  kind := .text
  required := false
  doc :=
    match style with
    | .buffer => "name of the output variable (default `_buf`)"
    | .array => "name of the parts vector (default `_buf`)"

/- Whether a name can be used as a variable. -/
def isVariable (name : String) : Bool :=
  Expression.isIdentifier name && !name.toList.contains '.'

/- The generator of a style with the variable its options name. -/
def ofOptions
    (style : GeneratorStyle)
    (options : ResolvedOptions) : Except ConfigError Generator :=
  let name := options.textOr "buffer" defaultVariable
  if isVariable name then .ok ⟨style, name⟩
  else
    .error (.invalidOption options.stage "buffer" "a variable name"
      (Text.quoted name))

end Generator

end TemplateTree
