import DearAgent.Ports

/-!
# The approval service

`approvals_service.py` without the parsing of replies: a reply redeems its
token and moves the task of that token on.
-/

namespace DearAgent.ApprovalService

open DearAgent.Lib.Text DearAgent.Lib.Effects DearAgent.Queue

set_option autoImplicit false

def request (taskId action : Str) : Code Str := do
  let approval ← call (.issue taskId action)
  .ret approval.token

/-- The sender check of `apply`, made only where both senders are known. -/
def senderDiffers [Unicode] (given stored : Option Str) : Bool :=
  match given, stored with
  | some given, some stored => Unicode.lower given ≠ Unicode.lower stored
  | _, _ => false

def threadDiffers (given stored : Option Str) : Bool :=
  match given, stored with
  | some given, some stored => given ≠ stored
  | _, _ => false

def target (decision : Decision) (action : Str) : TaskState :=
  if decision ≠ .approved then .rejected
  else if action = "run".toList then .queued
  else .approved

/-- The end of `apply`: the token is spent before the task moves. -/
def decide (reply : ApprovalReply) (task : Task) : Code Task := do
  let redeemed ← call (.redeem reply)
  Queue.transition task (target reply.decision redeemed.approval.action)

def apply [Unicode] (reply : ApprovalReply) (sender threadId : Option Str) : Code Task := do
  match ← call (.approvalOf reply.token) with
  | none => .raise (.unknownToken reply.token)
  | some approval => do
      match ← Queue.get approval.taskId with
      | none => .raise (.unknownToken reply.token)
      | some task =>
          if task.state ≠ .action then .raise (.approvalNotApplicable approval.taskId task.state)
          else if senderDiffers sender task.sender then
            .raise (.approvalMismatch approval.taskId "sender")
          else if threadDiffers threadId task.threadId then
            .raise (.approvalMismatch approval.taskId "thread")
          else decide reply task

end DearAgent.ApprovalService
