import TypedApi.Bindings.Method
/-!
Generated modules.

A module holds one definition for each item of a finished model, in order, and
one class with a method for each operation. `ofModel` makes it and `text`
writes it.
-/

set_option autoImplicit false

namespace TypedApi

/-- A generated module. -/
structure Bindings where
  definitions : List Bindings.Definition
  interfaceName : String
  methods : List Bindings.Method
deriving Repr, Inhabited

namespace Bindings

/-- The definitions for items, the first at the given position. -/
def definitionsFrom (m : Model) (emitDocs : Bool) (position : Nat) :
    List Item → Except Failure (List Definition)
  | [] => .ok []
  | item :: rest => do
    let definition ← definitionOf m emitDocs position item
    return definition :: (← definitionsFrom m emitDocs (position + 1) rest)

/-- The module for a model, which must be finished. -/
def ofModel (m : Model) (emitDocs : Bool) : Except Failure Bindings := do
  if !m.finalized then fail .notFinalized
  let definitions ← definitionsFrom m emitDocs 0 m.definitions
  let methods ← methodsFrom m emitDocs [] m.operations
  return { definitions, interfaceName := Name.deconflict "Api" m.items.keys, methods }

/-- The lines that every module begins with. -/
def preamble : List String :=
  ["\"\"\"Models generated by apimodel. Do not edit.\"\"\"",
   "",
   "from __future__ import annotations",
   "",
   "from datetime import date, datetime",
   "from enum import Enum",
   "from ipaddress import IPv4Address, IPv6Address",
   "from typing import Annotated, Any, FrozenSet, List, Literal, Optional, Protocol, Union",
   "from uuid import UUID",
   "",
   "from pydantic import BaseModel, ConfigDict, Field, RootModel"]

/-- The lines of the interface. -/
def interfaceLines (b : Bindings) : List String :=
  ("class " ++ b.interfaceName ++ "(Protocol):") ::
    if b.methods.isEmpty then ["    pass"]
    else List.intercalate [""] (b.methods.map Method.lines)

/-- The lines of a module. -/
def lines (b : Bindings) : List String :=
  preamble ++ b.definitions.flatMap (fun d => "" :: "" :: d.lines) ++ "" :: "" :: b.interfaceLines

/-- A module as it is written. -/
def text (b : Bindings) : String :=
  String.join (b.lines.map (· ++ "\n"))

end Bindings

end TypedApi
