/-! A sink takes bytes and may refuse them at any point. The class says nothing
about when it does, so a statement over every sink covers every pattern of
failures; what has been taken so far is part of the sink's own state. -/
namespace Testbench

inductive IoError where
  | notFound
  | notDirectory
  | isDirectory
  | nameTooLong
  | nulInName
  | noSpace
  | notText
  | rejected (reason : String)
  deriving DecidableEq, Repr

def IoError.message : IoError → String
  | .notFound => "No such file or directory (os error 2)"
  | .notDirectory => "Not a directory (os error 20)"
  | .isDirectory => "Is a directory (os error 21)"
  | .nameTooLong => "File name too long (os error 36)"
  | .nulInName => "file name contained an unexpected NUL byte"
  | .noSpace => "No space left on device (os error 28)"
  | .notText => "stream did not contain valid UTF-8"
  | .rejected reason => reason

/-- A write that was cut short: how many of its bytes were taken, and why no more. -/
structure Shortfall where
  taken : Nat
  error : IoError
  deriving DecidableEq, Repr

class Sink (σ : Type) where
  write : ByteArray → σ → Except Shortfall Unit × σ
  flush : σ → Except IoError Unit × σ

namespace Sink

variable {σ : Type} [Sink σ]

def put (bytes : ByteArray) (sink : σ) : Except IoError Unit × σ :=
  match write bytes sink with
  | (.ok _, sink) => (.ok (), sink)
  | (.error shortfall, sink) => (.error shortfall.error, sink)

def putAll : List String → σ → Except IoError Unit × σ
  | [], sink => (.ok (), sink)
  | piece :: rest, sink =>
    match put piece.toUTF8 sink with
    | (.ok _, sink) => putAll rest sink
    | (.error error, sink) => (.error error, sink)

theorem putAll_append (first second : List String) (sink : σ) :
    putAll (first ++ second) sink =
      match putAll first sink with
      | (.ok _, sink) => putAll second sink
      | (.error error, sink) => (.error error, sink) := by
  induction first generalizing sink with
  | nil => rfl
  | cons piece rest ih =>
    simp only [List.cons_append, putAll]
    split
    · exact ih _
    · rfl

end Sink

end Testbench
