import MailRules.Main
import MailRules.Extraction.Request
import MailRules.Proofs.CommandLine.Run
import MailRules.Proofs.Engine.Deferral
import MailRules.Proofs.Engine.Excerpt
import MailRules.Proofs.Engine.Import
import MailRules.Proofs.Extraction.Fence
import MailRules.Proofs.Extraction.Schedule
import MailRules.Proofs.Instruction.Bare
import MailRules.Proofs.Instruction.Case
import MailRules.Proofs.Instruction.FileName
import MailRules.Proofs.Log.Layers
import MailRules.Proofs.Log.Lines
import MailRules.Proofs.Privacy.Logged
import MailRules.Proofs.Registry.Audit
import MailRules.Proofs.Registry.Confidence
import MailRules.Proofs.Registry.Deletions
import MailRules.Proofs.Registry.Details
import MailRules.Proofs.Registry.Durable
import MailRules.Proofs.Registry.Finding
import MailRules.Proofs.Registry.Interleaving
import MailRules.Proofs.Registry.Matching
import MailRules.Proofs.Registry.Refusal
import MailRules.Proofs.Registry.Showing
import MailRules.Proofs.Registry.Sweep
import MailRules.Proofs.Settings.Override
import MailRules.Proofs.Sheet.Exception
import MailRules.Proofs.Sheet.Extension
import MailRules.Proofs.Sheet.Hint
import MailRules.Proofs.Sheet.Position
import MailRules.Proofs.Sheet.Written
import MailRules.Proofs.Thread.Decoding
