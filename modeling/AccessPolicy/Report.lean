/-
The trace of an evaluation: lines of text, each behind as many tabs as the report is deep at that
moment. Depth never falls below zero.
-/

import AccessPolicy.Text.Quoted

namespace AccessPolicy

structure Report where
  text : String := ""
  depth : Nat := 0
  deriving DecidableEq, Repr

namespace Report

def tabs (depth : Nat) : String := String.ofList (List.replicate depth '\t')

def line (depth : Nat) (message : String) : String := tabs depth ++ message ++ "\n"

def write (r : Report) (message : String) : Report :=
  { r with text := r.text ++ line r.depth message }

def indent (r : Report) : Report := { r with depth := r.depth + 1 }

def unindent (r : Report) : Report := { r with depth := r.depth - 1 }

def debug (r : Report) : String :=
  "Reporter \x7b buffer: " ++ Text.quote r.text
    ++ ", indent: " ++ Text.quote (tabs r.depth) ++ " \x7d"

inductive Call
  | write (message : String)
  | indent
  | unindent

def apply (r : Report) : Call → Report
  | .write message => r.write message
  | .indent => r.indent
  | .unindent => r.unindent

def applyAll (r : Report) (calls : List Call) : Report := calls.foldl apply r

end Report

end AccessPolicy
