import IslandSurvival.Model.Message

/-! `TcpSocket`: one connection with its receive and send buffers. The kernel's side of `recv` and
    `send` is a sequence of answers, one for each call. -/

namespace IslandSurvival

def recvBufferSize : Nat := 0x30000
def sendBufferSize : Nat := 0x30000

inductive ReadStatus
  | success | notFinish | error
deriving DecidableEq, Repr

inductive WriteStatus
  | success | notFinish | error
deriving DecidableEq, Repr

/-- What the kernel offers to one `recv`: bytes in stream order, `EAGAIN`, the end of the stream, or
    another error. -/
inductive RecvAnswer
  | data (bytes : Bytes)
  | again
  | eof
  | error
deriving DecidableEq, Repr

/-- How one `send` goes: the kernel takes a part, reports `EAGAIN`, or reports another error (with `EPIPE` comes a signal
    that ends the process, see `ProcessEnd`). -/
inductive SendAnswer
  | take (count : Nat)
  | again
  | error
deriving DecidableEq, Repr

/-- `send` of `n > 0` bytes takes between one and `n` of them. -/
def SendAnswer.clamp (count n : Nat) : Nat := max 1 (min count n)

structure TcpSocket where
  iSockfd : Int
  recvHead : Nat
  recvTail : Nat
  recvBuffer : Nat → UInt8
  sendHead : Nat
  sendTail : Nat
  sendBuffer : Nat → UInt8
  isUsing : Bool

namespace TcpSocket

/-- `Init` sets everything but the buffers' contents. -/
def init (sock : TcpSocket) : TcpSocket :=
  { sock with iSockfd := -1, recvHead := 0, recvTail := 0, sendHead := 0, sendTail := 0, isUsing := false }

/-- The bytes received and not yet extracted. -/
def unread (sock : TcpSocket) : Bytes := Memory.read sock.recvBuffer sock.recvHead (sock.recvTail - sock.recvHead)

/-- The bytes accepted from `SendData` and not yet taken by the kernel. -/
def pending (sock : TcpSocket) : Bytes := Memory.read sock.sendBuffer sock.sendHead (sock.sendTail - sock.sendHead)

/-! ## Receiving -/

/-- `TryMoveReceDataAhead`: a buffer filled to its end is moved to the front; `none` when there is
    nothing to gain. -/
def tryMoveReceDataAhead (sock : TcpSocket) : Option TcpSocket :=
  if sock.recvTail = recvBufferSize then
    if sock.recvHead > 0 then
      some { sock with
        recvBuffer := Memory.write sock.recvBuffer 0 sock.unread
        recvTail := sock.recvTail - sock.recvHead
        recvHead := 0 }
    else
      none
  else
    some sock

structure RecvOutcome where
  sock : TcpSocket
  status : ReadStatus
  /-- what `recv` delivered -/
  received : Bytes
  /-- the number of `recv` calls -/
  calls : Nat

/-- The receive loop. Each turn with data fills part of the buffer, so the free space bounds the
    number of turns. -/
def recvLoop (kernel : Nat → RecvAnswer) : Nat → Nat → Bytes → TcpSocket → Except Fault RecvOutcome
  | 0, _, _, _ => .error .fuel
  | fuel + 1, calls, received, sock =>
    match sock.tryMoveReceDataAhead with
    | none => .ok { sock, status := .notFinish, received, calls }
    | some sock =>
      match kernel calls with
      | .data bytes =>
        let got := bytes.take (recvBufferSize - sock.recvTail)
        if got = [] then
          .ok { sock, status := .error, received, calls := calls + 1 }
        else
          recvLoop kernel fuel (calls + 1) (received ++ got) { sock with
            recvBuffer := Memory.write sock.recvBuffer sock.recvTail got
            recvTail := sock.recvTail + got.length }
      | .again => .ok { sock, status := .success, received, calls := calls + 1 }
      | .eof => .ok { sock, status := .error, received, calls := calls + 1 }
      | .error => .ok { sock, status := .error, received, calls := calls + 1 }

def recvData (kernel : Nat → RecvAnswer) (sock : TcpSocket) : Except Fault RecvOutcome :=
  if sock.isUsing = false then
    .ok { sock, status := .error, received := [], calls := 0 }
  else
    let sock := if sock.recvTail = sock.recvHead then { sock with recvHead := 0, recvTail := 0 } else sock
    recvLoop kernel (recvBufferSize - (sock.recvTail - sock.recvHead) + 1) 0 [] sock

/-- `get_one_message` with the caller's buffer: the extracted bytes, or why there are none. -/
def getOneMessage (maxSize : Nat) (sock : TcpSocket) : Ret × Bytes × TcpSocket :=
  if (sock.recvTail : Int) - sock.recvHead ≤ 4 then
    (.fail, [], sock)
  else
    let msgSize := (ntohl sock.recvBuffer sock.recvHead).toInt32.toInt
    if msgSize ≤ 0 then
      (.error, [], sock)
    else if msgSize > (sock.recvTail : Int) - sock.recvHead ∨ msgSize > maxSize then
      (.fail, [], sock)
    else
      let size := msgSize.toNat
      (.success, Memory.read sock.recvBuffer sock.recvHead size, { sock with recvHead := sock.recvHead + size })

/-! ## Sending -/

structure SendOutcome where
  sock : TcpSocket
  status : WriteStatus
  /-- what the kernel took -/
  taken : Bytes
  /-- the number of `send` calls -/
  calls : Nat

/-- The second loop: `data` goes straight to the kernel, and what the kernel does not take into the
    empty send buffer. -/
def sendRest (kernel : Nat → SendAnswer) : Nat → Nat → Bytes → Bytes → TcpSocket → Except Fault SendOutcome
  | 0, _, _, _, _ => .error .fuel
  | fuel + 1, calls, taken, data, sock =>
    if data = [] then
      .ok { sock, status := .success, taken, calls }
    else
      match kernel calls with
      | .take count =>
        let n := SendAnswer.clamp count data.length
        sendRest kernel fuel (calls + 1) (taken ++ data.take n) (data.drop n) sock
      | .error => .ok { sock, status := .error, taken, calls := calls + 1 }
      | .again =>
        if data.length ≤ sendBufferSize - sock.sendTail then
          .ok {
            sock := { sock with
              sendBuffer := Memory.write sock.sendBuffer sock.sendTail data
              sendTail := sock.sendTail + data.length }
            status := .success, taken, calls := calls + 1 }
        else
          .ok { sock, status := .error, taken, calls := calls + 1 }

/-- The first loop: the send buffer is drained before anything new is sent. On `EAGAIN` the rest is
    moved to the front and `data` appended, if it fits. -/
def sendLoop (kernel : Nat → SendAnswer) (data : Bytes) : Nat → Nat → Bytes → TcpSocket → Except Fault SendOutcome
  | 0, _, _, _ => .error .fuel
  | fuel + 1, calls, taken, sock =>
    if sock.sendTail - sock.sendHead > 0 then
      match kernel calls with
      | .take count =>
        let n := SendAnswer.clamp count (sock.sendTail - sock.sendHead)
        sendLoop kernel data fuel (calls + 1) (taken ++ Memory.read sock.sendBuffer sock.sendHead n)
          { sock with sendHead := sock.sendHead + n }
      | .error => .ok { sock, status := .error, taken, calls := calls + 1 }
      | .again =>
        let sock := { sock with
          sendBuffer := Memory.write sock.sendBuffer 0 sock.pending
          sendTail := sock.sendTail - sock.sendHead
          sendHead := 0 }
        if data.length ≤ sendBufferSize - sock.sendTail then
          .ok {
            sock := { sock with
              sendBuffer := Memory.write sock.sendBuffer sock.sendTail data
              sendTail := sock.sendTail + data.length }
            status := .success, taken, calls := calls + 1 }
        else
          .ok { sock, status := .notFinish, taken, calls := calls + 1 }
    else if sock.sendHead = sock.sendTail then
      sendRest kernel (data.length + 1) calls taken data { sock with sendHead := 0, sendTail := 0 }
    else
      .ok { sock, status := .success, taken, calls }

def sendData (kernel : Nat → SendAnswer) (data : Bytes) (sock : TcpSocket) : Except Fault SendOutcome :=
  if data = [] then
    .ok { sock, status := .success, taken := [], calls := 0 }
  else if sock.isUsing = false then
    .ok { sock, status := .error, taken := [], calls := 0 }
  else
    sendLoop kernel data (sock.sendTail - sock.sendHead + 1) 0 [] sock

end TcpSocket

end IslandSurvival
