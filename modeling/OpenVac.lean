import OpenVac.Agent.RunVersions
import OpenVac.Agent.WebPolicy
import OpenVac.Knowledge.FetchConfinement
import OpenVac.Agent.StaleThreshold
import OpenVac.Providers.StreamProtocol
import OpenVac.ChatStorage.UploadFinality
import OpenVac.ChatStorage.Clearing
import OpenVac.Agent.LeaseRecovery
import OpenVac.Worker.PoisonJobs
import OpenVac.KnowledgeBase.ReviewLeases
import OpenVac.Admin.UsableOwner
import OpenVac.Admin.CurrentOwners
import OpenVac.Operations.BudgetOverview
import OpenVac.Agent.ToolRegistry
import OpenVac.Providers.LosslessMerge
import OpenVac.Knowledge.RankFusion
import OpenVac.Agent.CitedAnswer
import OpenVac.Agent.PrivateToolCalls
import OpenVac.Knowledge.RetrievalRows
import OpenVac.Quota.Admission
import OpenVac.Agent.PumpdownAgreement
import OpenVac.KnowledgeBase.PublicationSoundness
import OpenVac.Operations.BeijingDay
import OpenVac.Chat.VersionReconciliation
import OpenVac.Knowledge.IpSpellings
import OpenVac.Providers.SseJson
import OpenVac.Agent.AttachmentChunks
import OpenVac.ChatStorage.ClientUploads
import OpenVac.Chat.CitationLinks
import OpenVac.Api.ProblemReports
import OpenVac.Chat.PendingQuestion
import OpenVac.Chat.ReturnSafety
import OpenVac.Artifacts.DocxReadBack
import OpenVac.Artifacts.StoredZip
import OpenVac.Artifacts.TableShape
import OpenVac.Artifacts.PdfLayout
import OpenVac.Agent.ParameterTableClosure
import OpenVac.Agent.CanonicalLabels
import OpenVac.Agent.UrlTrimming
import OpenVac.Providers.DocMindPages
import OpenVac.Worker.ReviewedCoverage
import OpenVac.ChatStorage.Locators
import OpenVac.Agent.UnitSpelling
import OpenVac.KnowledgeBase.Rollbacks
import OpenVac.Agent.ContextBuilder
