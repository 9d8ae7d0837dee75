import MonkeySyntax.Cursor
import MonkeySyntax.Error

/-!
# Replies

What parsing a part of a source yields: a value or a fault, and the items that are left. They are
the end of the items that were there, which is what makes the parser terminate. `andThen_done` and
`andThen_failed` say how one part follows another.
-/

namespace MonkeySyntax

/-- Why a statement is given up. -/
inductive Fault where
  /-- Something is wrong at a place in the source. -/
  | problem (cause : Cause) (position : Position)
  /-- A numeral has too many digits to be converted at all. -/
  | tooLong (numeral : Decimal.TooLong)
deriving DecidableEq

/-- The result of parsing from `bound`, with the items that are left of it. -/
inductive Reply (α : Type) (bound : List Item) where
  | done (value : α) (rest : List Item) (suffix : rest <:+ bound)
  | failed (fault : Fault) (rest : List Item) (suffix : rest <:+ bound)

namespace Reply

variable {α β : Type} {bound wider : List Item}

def widen (h : bound <:+ wider) : Reply α bound → Reply α wider
  | done value rest suffix => done value rest (suffix.trans h)
  | failed fault rest suffix => failed fault rest (suffix.trans h)

def ofTail (reply : Reply α bound.tail) : Reply α bound := reply.widen (List.tail_suffix bound)

/-- Parses `next` behind a part that was parsed; a fault ends it all. -/
def andThen (reply : Reply α bound)
    (next : (value : α) → (rest : List Item) → rest <:+ bound → Reply β rest) : Reply β bound :=
  match reply with
  | done value rest suffix => (next value rest suffix).widen suffix
  | failed fault rest suffix => failed fault rest suffix

theorem andThen_done {value : α} {rest : List Item} {suffix : rest <:+ bound}
    {next : (value : α) → (rest : List Item) → rest <:+ bound → Reply β rest} :
    (done value rest suffix).andThen next = (next value rest suffix).widen suffix := rfl

theorem andThen_failed {fault : Fault} {rest : List Item} {suffix : rest <:+ bound}
    {next : (value : α) → (rest : List Item) → rest <:+ bound → Reply β rest} :
    (failed fault rest suffix).andThen next = failed fault rest suffix := rfl

end Reply

end MonkeySyntax
