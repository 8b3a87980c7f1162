import TreeSchema.Yaml.Web

/-!
# Decoded documents

What a text is read to is a data tree as a rule. A text of YAML may also be read to a document that
is a part of itself, of which there is no tree. The two are told apart once, when the text has been
read (`Decoded`), and only what has to know the difference looks at it: everything that walks a
document to a known depth walks a data tree (`Decoded.upTo`).
-/

namespace TreeSchema

/-- A document that was read from a text. -/
inductive Decoded where
  | tree (v : Value)
  /-- A node of the document is a part of itself, so that there is no tree of it. -/
  | endless (w : Yaml.Web) (h : w.tree? = none)

namespace Decoded

/-- The document that a web of nodes is. -/
def ofWeb (w : Yaml.Web) : Decoded :=
  match h : w.tree? with
  | some v => tree v
  | none => endless w h

/-- What a document looks like down to a depth. -/
def upTo (depth : Nat) : Decoded → Value
  | tree v => v
  | endless w _ => w.unfold depth

/-- The lines for all offences of a document against the shape of schema documents. -/
def violations (stack : Stack) : Decoded → Except ShapeFault (List String)
  | tree v => v.violations stack
  | endless w _ => w.violations stack

end Decoded

end TreeSchema
