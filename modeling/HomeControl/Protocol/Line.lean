import HomeControl.Protocol.Message

/-!
# Lines

On a connection a message is one line of hexadecimal text, so no payload can hold the line feed that
ends it. Reading a line takes digits of either case and any run of carriage returns and line feeds
at its end.
-/

namespace HomeControl.Line

/-- Writes a message as a line, line feed included. -/
def encode (m : Message) : Except ProtocolError Bytes :=
  match m.bytes with
  | .ok bs => .ok (Hex.encode bs ++ [lineFeed])
  | .error e => .error e

/-- Whether a byte belongs to the end of a line. -/
def isTerminator (b : UInt8) : Bool :=
  b == carriageReturn || b == lineFeed

/-- A line without the run of terminators it ends with. -/
def strip (line : Bytes) : Bytes :=
  (line.reverse.dropWhile isTerminator).reverse

/-- Reads a line, with or without its end. -/
def decode (line : Bytes) : Except ProtocolError Message :=
  match strip line with
  | [] => .error .empty
  | b :: bs =>
    match Hex.decode (b :: bs) with
    | .ok bytes => Message.ofBytes bytes
    | .error fault => .error (.invalidHex fault.message)

end HomeControl.Line
