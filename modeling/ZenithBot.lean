import ZenithBot.SecurePeer.Revocation
import ZenithBot.SecurePeer.Rotation
import ZenithBot.EventLog.ExactlyOnce
import ZenithBot.TeamHub.Rotation
import ZenithBot.TeamHub.AttachmentAccess
import ZenithBot.TeamHub.RestoreRecovery
import ZenithBot.TeamHub.MaintenanceOperations
import ZenithBot.TeamHub.HostAdmission
import ZenithBot.TeamHub.MembershipLife
import ZenithBot.Turns.SlotOwner
import ZenithBot.Turns.QueuedEdit
import ZenithBot.Turns.Memory
import ZenithBot.CrossChat.Reply
import ZenithBot.TeamHub.AttachmentResume
import ZenithBot.Jobs.Count
import ZenithBot.Saves.Honest
import ZenithBot.Mentions.Assignment
import ZenithBot.Delivery.Responses
import ZenithBot.Delivery.Outbound
import ZenithBot.CrossChat.RouteRate
import ZenithBot.SecurePeer.RateLimit
import ZenithBot.History.Reconcile
import ZenithBot.Codex.TurnHandle
import ZenithBot.Codex.Bounded
